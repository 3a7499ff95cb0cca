import SpriteKernel.Mem.Large
import Mathlib.Algebra.Group.Int.Defs

/- What the callers of the allocator may count on: the blocks they have are large enough, apart from
   each other and from the allocator's own words, nothing is stored in them, and a block goes back to
   the allocator it came from. -/
namespace SpriteKernel.Mem

open Function
open Spans Transition
namespace Memory
variable {P : Statics} {s t : Memory} {f g : Blocks} {a b p n m : Int} {x y z : Span Kind} {numBytes : Nat}

/-- The rounded size is an `int`, what is freed or stored into is a block in use, and a store stays in its words. -/
def Promised (P : Statics) (s : Memory) : MemStep → Prop
  | .bin _ => True
  | .malloc numBytes chunk _ =>
    bytesToBlocksize numBytes < 2 ^ 31 ∧ ∀ c, chunk = some c → ValidChunk P s (s.asked numBytes) c
  | .free blockPtr => s.used blockPtr ≠ none
  | .store blockPtr off _ => ∃ n b, s.used blockPtr = some (n, b) ∧ 0 ≤ off ∧ off < n ∧ off % 4 = 0

def initBlocks (P : Statics) : Blocks := put (put (fun _ => none) P.first ⟨4, .dummy P.last⟩) P.last ⟨4, .dummy P.last⟩

theorem first_last_apart (P : Statics) : P.first + 4 ≤ P.last ∨ P.last + 4 ≤ P.first := by
  have hf := first_le P
  have hl := last_le P
  have hap := P.apart
  omega

theorem initBlocks_eq_some (hx : initBlocks P a = some x) : (a = P.first ∨ a = P.last) ∧ x = ⟨4, .dummy P.last⟩ := by
  obtain ⟨rfl, rfl⟩ | ⟨-, hx⟩ := put_eq_some hx
  · exact ⟨.inr rfl, rfl⟩
  · obtain ⟨rfl, rfl⟩ | ⟨-, hx⟩ := put_eq_some hx
    · exact ⟨.inl rfl, rfl⟩
    · cases hx

theorem layout_init (P : Statics) (mem : Int → Int) : Layout P (init P mem) (initBlocks P) := by
  have hf := first_le P
  have hl := last_le P
  have hap := first_last_apart P
  have hne : P.first ≠ P.last := by omega
  have hlast : initBlocks P P.last = some ⟨4, .dummy P.last⟩ := put_self
  have hfirst : initBlocks P P.first = some ⟨4, .dummy P.last⟩ := (put_of_ne hne).trans put_self
  have hkind : ∀ a x (k : Kind), initBlocks P a = some x → x.kind = k → k = .dummy P.last := by
    rintro a x k hx rfl
    rw [(initBlocks_eq_some hx).2]
  have hbody : ∀ a x, initBlocks P a = some x → x.kind.body ≠ true := by
    intro a x hx hb
    rw [(initBlocks_eq_some hx).2] at hb
    cases hb
  refine ⟨⟨fun a x hx => ?_, fun a b x y hx hy hab => ?_⟩, fun a x hx => ?_, fun a x hx => ?_, fun a x hx hb => absurd hb (hbody a x hx),
    fun a n u hx => ?_, fun a x d n u hx hb => absurd hb (hbody a x hx), ⟨_, hfirst⟩, ⟨_, hlast⟩, fun a n u hx hf' hl' => ?_,
    ⟨_, hfirst, rfl⟩, fun a x hx hf' hl' => ?_, fun i => ?_, fun a x hx hk => ?_, fun a x hx hk => ?_, nofun, fun _ a x hx => ?_, ?_,
    fun i => ?_⟩
  · rw [(initBlocks_eq_some hx).2]
    exact (by decide : (0 : Int) < 4)
  · obtain ⟨ha, rfl⟩ := initBlocks_eq_some hx
    obtain ⟨hb, rfl⟩ := initBlocks_eq_some hy
    dsimp only
    omega
  · obtain ⟨ha, rfl⟩ := initBlocks_eq_some hx
    refine ⟨?_, rfl⟩
    omega
  · obtain ⟨ha, rfl⟩ := initBlocks_eq_some hx
    refine ⟨hl.2.2, ?_⟩
    unfold init
    dsimp only
    obtain rfl | rfl := ha
    · rw [update_of_ne hne, update_self, markDummy_of_word (by omega)]
    · rw [update_self, markDummy_of_word (by decide)]
      omega
  · obtain ⟨-, heq⟩ := initBlocks_eq_some hx
    injection heq with _ hk
    injection hk with hk
    rw [hk]
    exact ⟨_, hlast, rfl⟩
  · exact absurd (initBlocks_eq_some hx).1 (not_or.2 ⟨hf', hl'⟩)
  · exact absurd (initBlocks_eq_some hx).1 (not_or.2 ⟨hf', hl'⟩)
  · refine ⟨[], rfl, List.nodup_nil, fun a => ⟨(nomatch ·), fun hx => ?_⟩⟩
    cases hkind a _ .binFree hx rfl
  · obtain hk | hk := hk
    · cases hkind a x _ hx hk
    · cases hkind a x _ hx hk
  · cases hkind a x _ hx hk
  · exact (initBlocks_eq_some hx).1
  · exact (by decide : (0 : Int) ≠ -1)
  · unfold init
    dsimp only
    split <;> decide

/-- Before the first `malloc` there are no blocks but the dummy ones, so their sizes do not matter. -/
theorem Layout.bin (h : Layout P s f) (hs : s.bin numBytes = some t) : Layout P t f := by
  unfold Memory.bin at hs
  split at hs
  · cases hs
  next hallocs =>
  dsimp only at hs
  split at hs
  · exact Option.some.inj hs ▸ h
  split at hs
  · exact Option.some.inj hs ▸ h
  next hcount =>
  cases hs
  have hkind : ∀ a x, f a = some x → ∃ u, x.kind = .dummy u := by
    intro a x hx
    obtain rfl | rfl := h.fresh (by omega) a x hx
    · obtain ⟨u, hu⟩ := h.first
      cases hu.symm.trans hx
      exact ⟨u, rfl⟩
    · obtain ⟨u, hu⟩ := h.last
      cases hu.symm.trans hx
      exact ⟨u, rfl⟩
  refine { h with binSize := ?_, largeSize := ?_, small := ?_, counts := ?_ }
  · intro a x hx hk
    obtain ⟨u, hu⟩ := hkind a x hx
    rw [hu] at hk
    obtain hk | hk := hk <;> cases hk
  · intro a x hx hk
    obtain ⟨u, hu⟩ := hkind a x hx
    rw [hu] at hk
    cases hk
  · by_cases h2 : 2 = blocksizeToIndex (bytesToBlocksize numBytes)
    · dsimp only
      rw [← h2, update_self]
      decide
    · dsimp only
      rw [update_of_ne h2]
      exact h.small
  · intro i
    dsimp only
    by_cases hi : i = blocksizeToIndex (bytesToBlocksize numBytes)
    · subst hi
      rw [update_self]
      decide
    · rw [update_of_ne hi]
      exact h.counts i

theorem bin_same (hs : s.bin numBytes = some t) : t.used = s.used ∧ t.mem = s.mem := by
  unfold Memory.bin at hs
  split at hs
  · cases hs
  dsimp only at hs
  split at hs
  · exact Option.some.inj hs ▸ ⟨rfl, rfl⟩
  split at hs
  · exact Option.some.inj hs ▸ ⟨rfl, rfl⟩
  · cases hs
    exact ⟨rfl, rfl⟩

theorem Layout.kept_of_start (h : Layout P s f) (hx : f a = some x) : s.Kept (s.setAdmin a m) := by
  intro p n b hp c hle hlt
  have hin := h.inUse p n b hp
  have hfit := le_bytesToBlocksize n
  refine update_of_ne ?_ _ _
  rintro rfl
  unfold adminInfo at hin hfit
  have hap := h.apart.start_not_mem hx hin (by omega)
  dsimp only at hap
  omega

theorem Layout.give {b : Bool} (h : Layout P s f) (hx : f a = some ⟨bytesToBlocksize numBytes, if b then .binUsed else .used⟩) :
    Layout P { s with used := update s.used (a + adminInfo) (some (numBytes, b)) } f :=
  { h with
    inUse := by
      intro p n b' hp
      dsimp only at hp
      by_cases hpa : p = a + adminInfo
      · subst hpa
        rw [update_self] at hp
        cases hp
        rw [Int.add_sub_cancel]
        exact hx
      · rw [update_of_ne hpa] at hp
        exact h.inUse p n b' hp }

/-- What `malloc` does: the block was not in use, and nothing is stored in the blocks that were. -/
structure Given (s t : Memory) (numBytes : Nat) (p : Int) : Prop where
  fresh : s.used p = none
  used : t.used = update s.used p (some (numBytes, s.binned (bytesToBlocksize numBytes)))
  kept : s.Kept t
  binned : ∀ n, t.binned n = s.binned n

theorem Layout.malloc {fuel : Nat} {chunk : Option (Int × Int)} (h : Layout P s f)
    (hc : ∀ c, chunk = some c → ValidChunk P s (s.asked numBytes) c) (hs : s.malloc P numBytes chunk fuel = some t) :
    ∃ g, Layout P t g ∧ (∃ p, Given s t numBytes p) ∧
      (s.binned (bytesToBlocksize numBytes) = false →
        Patched P s ∨ s.currentPtr + sizeOf (s.mem s.currentPtr) = P.last ∧ s.largestFree ≤ bytesToBlocksize numBytes → Patched P t) := by
  unfold Memory.malloc at hs
  dsimp only at hs
  obtain ⟨⟨u, a⟩, hu, heq⟩ := Option.map_eq_some_iff.1 hs
  obtain rfl : _ = t := heq
  have hstart : Layout P { s with numAllocs := s.numAllocs + 1 } f := { h with fresh := nofun }
  obtain ⟨b, hb⟩ : ∃ b, b = s.binned (bytesToBlocksize numBytes) := ⟨_, rfl⟩
  rw [show ({ s with numAllocs := s.numAllocs + 1 } : Memory).binned (bytesToBlocksize numBytes) = b from hb.symm] at hu ⊢
  have hc' : ∀ c, chunk = some c → ValidChunk P { s with numAllocs := s.numAllocs + 1 } (s.asked numBytes) c := fun c hcc =>
    (hc c hcc).of_regions rfl
  -- whichever allocator the block comes from
  obtain ⟨g, hg, hframe, hself, huse, hpatch⟩ : ∃ g, Layout P u g ∧ ({ s with numAllocs := s.numAllocs + 1 } : Memory).Frame u ∧
      g a = some ⟨bytesToBlocksize numBytes, if b then .binUsed else .used⟩ ∧ (∀ p n b', s.used p = some (n, b') → p - adminInfo ≠ a) ∧
      (b = false → Patched P s ∨ s.currentPtr + sizeOf (s.mem s.currentPtr) = P.last ∧ s.largestFree ≤ bytesToBlocksize numBytes →
        Patched P u) := by
    cases b with
    | true =>
      obtain ⟨g, hg, hframe, hself, huse⟩ := hstart.mallocBinned hb.symm (Nat.succ_pos _) (fun c hcc => by
        have hvalid := hc' c hcc
        unfold asked at hvalid
        dsimp only at hvalid
        rwa [← hb, if_pos rfl] at hvalid) hu
      exact ⟨g, hg, hframe, hself, huse, nofun⟩
    | false =>
      obtain ⟨g, hg, hframe, hself, huse, hpatch⟩ := hstart.mallocLarge (Nat.succ_pos _) hb.symm hc' hu
      exact ⟨g, hg, hframe, hself, huse, fun _ => hpatch⟩
  refine ⟨g, hg.give hself, ⟨a + adminInfo, ?_, ?_, hframe.kept, hframe.binned⟩, fun hb' => hpatch (hb.trans hb')⟩
  · cases hp : s.used (a + adminInfo) with
    | none => rfl
    | some nb => exact absurd (Int.add_sub_cancel _ _) (huse _ nb.1 nb.2 hp)
  · rw [hframe.used, hb]

/-- What `free` does: the block goes on the list of its bin, or its word says that it is free. -/
structure Returned (s t : Memory) (p : Int) (n : Nat) (b : Bool) : Prop where
  binned : b = true → t.freeLists (blocksizeToIndex (bytesToBlocksize n)) = p - adminInfo ∧
    t.mem (p - adminInfo) = s.freeLists (blocksizeToIndex (bytesToBlocksize n))
  large : b = false → isInUse (t.mem (p - adminInfo)) = false ∧ t.freeLists = s.freeLists

section
variable (h : Layout P s f)
include h

theorem Layout.word_of_used {q : Int} {b : Bool} (hp : s.used q = some (numBytes, b)) :
    s.mem (q - adminInfo) = bytesToBlocksize numBytes + 1 ∧ s.binned (bytesToBlocksize numBytes) = b := by
  have hin := h.inUse q numBytes b hp
  have hw := h.word _ _ hin
  cases b with
  | true => exact ⟨hw, (h.binSize _ _ hin (.inr rfl)).1⟩
  | false => exact ⟨hw, h.largeSize _ _ hin rfl⟩

theorem Layout.free {q : Int} {b : Bool} (hp : s.used q = some (numBytes, b)) :
    ∃ t g, s.free q = some t ∧ Layout P t g ∧ Returned s t q numBytes b ∧ t.used = update s.used q none ∧ s.Kept t ∧
      (∀ n, t.binned n = s.binned n) := by
  have hin := h.inUse q numBytes b hp
  obtain ⟨hw, hbin⟩ := h.word_of_used hp
  have hsize := bytesToBlocksize_pos numBytes
  have hadmin : adminBits (bytesToBlocksize numBytes + 1) = 1 := by
    unfold adminBits
    omega
  have hsz : sizeOf (bytesToBlocksize numBytes + 1) = bytesToBlocksize numBytes := by
    unfold sizeOf
    omega
  have hother : ∀ (k : Kind) (q' : Int) (n : Nat) (b' : Bool), update s.used q none q' = some (n, b') →
      put f (q - adminInfo) ⟨bytesToBlocksize numBytes, k⟩ (q' - adminInfo) = some ⟨bytesToBlocksize n, if b' then .binUsed else .used⟩ := by
    intro k q' n b' hq
    have hne : q' ≠ q := by
      rintro rfl
      rw [update_self] at hq
      cases hq
    rw [update_of_ne hne] at hq
    rw [put_of_ne (by unfold adminInfo; omega)]
    exact h.inUse q' n b' hq
  unfold Memory.free
  dsimp only
  rw [hw, if_neg (by rw [hadmin]; exact not_not.2 rfl), hsz, hbin]
  cases b with
  | true =>
    obtain ⟨hidx, -⟩ := size_of_index numBytes
    refine ⟨_, put f (q - adminInfo) ⟨bytesToBlocksize numBytes, .binFree⟩, rfl, ?_, ⟨fun _ => ⟨?_, ?_⟩, fun h => by cases h⟩, rfl, ?_, fun _ => rfl⟩
    · refine h.setKind hin (m := s.freeLists (blocksizeToIndex (bytesToBlocksize numBytes))) rfl trivial rfl rfl (fun _ h => by cases h)
        (fun j => ?_) (fun h => by cases h) (hother .binFree) rfl rfl rfl id
      have hpush := h.bins_push (i := blocksizeToIndex (bytesToBlocksize numBytes)) (a := q - adminInfo) (fun m hm => by
        rw [hin] at hm
        cases hm) j
      rw [← hidx] at hpush
      exact hpush
    · exact update_self _ _ _
    · exact update_self _ _ _
    · exact h.kept_of_start hin
  | false =>
    refine ⟨_, put f (q - adminInfo) ⟨bytesToBlocksize numBytes, .free⟩, rfl, ?_, ⟨fun h => (by cases h), fun _ => ⟨?_, rfl⟩⟩, rfl, ?_, fun _ => rfl⟩
    · exact h.setKind hin rfl rfl rfl rfl (fun _ h => by cases h)
        (h.bins_setKind hin (fun h => by cases h) (fun h => by cases h) rfl rfl) (fun h => by cases h) (hother .free) rfl rfl rfl id
    · refine (congrArg isInUse (update_self _ _ _)).trans ?_
      unfold isInUse
      rw [beq_eq_false_iff_ne]
      omega
    · exact h.kept_of_start hin

theorem Layout.start_ne_store {q off : Int} {b : Bool} (hp : s.used q = some (numBytes, b)) (hle : 0 ≤ off)
    (hlt : off < numBytes) (hx : f a = some x) : a ≠ q + off := by
  have hin := h.inUse q numBytes b hp
  have hfit := le_bytesToBlocksize numBytes
  rintro rfl
  unfold adminInfo at hin hfit
  have hap := h.apart.start_not_mem hx hin (by omega)
  dsimp only at hap
  omega

theorem Layout.store {q off v : Int} {b : Bool} (hp : s.used q = some (numBytes, b)) (hle : 0 ≤ off)
    (hlt : off < numBytes) : Layout P (s.setAdmin (q + off) v) f := by
  have hmem : ∀ a x, f a = some x → (s.setAdmin (q + off) v).mem a = s.mem a := fun a x hx =>
    update_of_ne (h.start_ne_store hp hle hlt hx) _ _
  refine { h with word := fun a x hx => ?_, bins := h.bins_of_eq rfl (fun a n ha => hmem a _ ha) fun a n => Iff.rfl }
  rw [hmem a x hx]
  exact h.word a x hx

end

/-- Somebody has the block at `p` and keeps it: nothing is stored in it but by him. -/
structure Stays (s t : Memory) (l : MemStep) (p : Int) (n : Nat) (b : Bool) : Prop where
  used : l ≠ .free p → t.used p = some (n, b)
  contents : ∀ a, p ≤ a → a < p + n → (∀ off v, l = .store p off v → a ≠ p + off) → t.mem a = s.mem a

theorem Layout.used_apart {q q' : Int} {n n' : Nat} {b b' : Bool} (h : Layout P s f) (hp : s.used q = some (n, b))
    (hp' : s.used q' = some (n', b')) (hne : q ≠ q') : q + n ≤ q' - adminInfo ∨ q' + n' ≤ q - adminInfo := by
  have hin := h.inUse q n b hp
  have hin' := h.inUse q' n' b' hp'
  have hfit := le_bytesToBlocksize n
  have hfit' := le_bytesToBlocksize n'
  have hap := h.apart.apart _ _ _ _ hin hin' (by omega)
  dsimp only at hap
  omega

theorem Layout.step {l : MemStep} (h : Layout P s f) (hl : Promised P s l) (hs : Memory.step P s l = some t) :
    ∃ g, Layout P t g ∧ ∀ p n b, s.used p = some (n, b) → Stays s t l p n b := by
  cases l with
  | bin numBytes =>
    refine ⟨f, h.bin hs, fun p n b hp => ?_⟩
    have hsame := bin_same hs
    refine ⟨fun _ => ?_, fun a _ _ _ => ?_⟩
    · rw [hsame.1]
      exact hp
    · rw [hsame.2]
  | malloc numBytes chunk fuel =>
    obtain ⟨g, hg, ⟨q, hgiven⟩, -⟩ := h.malloc hl.2 hs
    refine ⟨g, hg, fun p n b hp => ⟨fun _ => ?_, fun a hle hlt _ => hgiven.kept p n b hp a hle hlt⟩⟩
    rw [hgiven.used, update_of_ne]
    · exact hp
    · rintro rfl
      rw [hgiven.fresh] at hp
      cases hp
  | free q =>
    obtain ⟨⟨n, b⟩, hq⟩ := Option.ne_none_iff_exists'.1 hl
    obtain ⟨t', g, hs', hg, -, hused, hkept, -⟩ := h.free hq
    cases hs'.symm.trans hs
    refine ⟨g, hg, fun p n b hp => ⟨fun hne => ?_, fun a hle hlt _ => hkept p n b hp a hle hlt⟩⟩
    rw [hused, update_of_ne]
    · exact hp
    · rintro rfl
      exact hne rfl
  | store q off v =>
    obtain ⟨n, b, hq, hle, hlt, -⟩ := hl
    cases hs
    refine ⟨f, h.store hq hle hlt, fun p n' b' hp => ⟨fun _ => hp, fun a hle' hlt' hown => update_of_ne ?_ _ _⟩⟩
    by_cases hpq : p = q
    · subst hpq
      exact hown off v rfl
    · have hap := h.used_apart hp hq hpq
      unfold adminInfo at hap
      omega

theorem run_layout {mem : Int → Int} (hr : Run (Memory.step P) (Promised P) (init P mem) s) : ∃ f, Layout P s f :=
  hr.invariant (I := fun s => ∃ f, Layout P s f) (fun _ _ _ ⟨_, h⟩ hl hs => ⟨_, (h.step hl hs).choose_spec.1⟩) ⟨_, layout_init P mem⟩

/-- The large blocks that can be come to from `first` or `last`. -/
inductive LargeBlock (P : Statics) (s : Memory) : Int → Prop
  | first : LargeBlock P s P.first
  | last : LargeBlock P s P.last
  | next {a : Int} : LargeBlock P s a → LargeBlock P s (a + sizeOf (s.mem a))

/-- The free blocks of a bin. -/
inductive FreeBlock (s : Memory) (i : Nat) : Int → Prop
  | head : s.freeLists i ≠ nil → FreeBlock s i (s.freeLists i)
  | next {a : Int} : FreeBlock s i a → s.mem a ≠ nil → FreeBlock s i (s.mem a)

/-- The words in which the allocator keeps what it knows about the blocks. -/
inductive AdminWord (P : Statics) (s : Memory) : Int → Prop
  | large {a : Int} : LargeBlock P s a → AdminWord P s a
  | free {i : Nat} {a : Int} : FreeBlock s i a → AdminWord P s a
  | used {p : Int} : s.used p ≠ none → AdminWord P s (p - adminInfo)

theorem Layout.largeBlock (h : Layout P s f) (ha : LargeBlock P s a) : Large f a := by
  induction ha with
  | first => exact h.large_first
  | last =>
    obtain ⟨u, hu⟩ := h.last
    exact ⟨_, hu, rfl⟩
  | next _ ih =>
    obtain ⟨x, hx, hl⟩ := ih
    rw [h.next_word hx hl]
    exact h.large_next hx hl

theorem Layout.freeBlock {i : Nat} (h : Layout P s f) (ha : FreeBlock s i a) : f a = some ⟨8 * i, .binFree⟩ := by
  obtain ⟨l, hl, -, hmemb⟩ := h.bins i
  refine (hmemb a).1 ?_
  induction ha with
  | head hne =>
    cases l with
    | nil => exact absurd hl hne
    | cons b l =>
      obtain ⟨hb, -⟩ := hl
      rw [hb]
      exact List.mem_cons_self
  | next _ hne ih => exact hl.link_mem ih hne

theorem Layout.adminWord (h : Layout P s f) (ha : AdminWord P s a) : ∃ x, f a = some x := by
  cases ha with
  | large ha =>
    obtain ⟨x, hx, -⟩ := h.largeBlock ha
    exact ⟨x, hx⟩
  | free ha => exact ⟨_, h.freeBlock ha⟩
  | used hp =>
    obtain ⟨⟨n, b⟩, hp⟩ := Option.ne_none_iff_exists'.1 hp
    exact ⟨_, h.inUse _ n b hp⟩

/-- What a caller may count on of the block it has at `p`, of which it asked for `n` bytes. -/
structure Sound (P : Statics) (s : Memory) (p : Int) (n : Nat) (b : Bool) : Prop where
  size : (n : Int) ≤ sizeOf (s.mem (p - adminInfo)) - adminInfo
  inside : ∀ a, p ≤ a → a < p + n → s.Supplied a
  disjoint : ∀ q m b', s.used q = some (m, b') → q ≠ p → p + n ≤ q ∨ q + m ≤ p
  admin : ∀ a, AdminWord P s a → a + 4 ≤ p ∨ p + n ≤ a
  origin : s.binned (sizeOf (s.mem (p - adminInfo))) = b

theorem Layout.sound {b : Bool} (h : Layout P s f) (hp : s.used p = some (numBytes, b)) : Sound P s p numBytes b := by
  have hin := h.inUse p numBytes b hp
  obtain ⟨hw, hbin⟩ := h.word_of_used hp
  have hsize := bytesToBlocksize_pos numBytes
  have hfit := le_bytesToBlocksize numBytes
  have hsz : sizeOf (s.mem (p - adminInfo)) = bytesToBlocksize numBytes := by
    unfold sizeOf
    omega
  refine ⟨?_, fun a hle hlt => ?_, fun q m b' hq hne => ?_, fun a ha => ?_, ?_⟩
  · omega
  · have hkind : ∀ u, (⟨bytesToBlocksize numBytes, if b then .binUsed else .used⟩ : Span Kind) ≠ ⟨4, .dummy u⟩ := by
      intro u heq
      injection heq with _ hk
      cases b <;> cases hk
    refine h.inside _ _ hin ?_ ?_ a (by unfold adminInfo; omega) (by dsimp only; omega)
    · intro heq
      obtain ⟨u, hu⟩ := h.first
      rw [← heq] at hu
      exact hkind u (Option.some.inj (hin.symm.trans hu))
    · intro heq
      obtain ⟨u, hu⟩ := h.last
      rw [← heq] at hu
      exact hkind u (Option.some.inj (hin.symm.trans hu))
  · have hap := h.used_apart hp hq hne.symm
    unfold adminInfo at hap
    omega
  · obtain ⟨x, hx⟩ := h.adminWord ha
    by_cases heq : a = p - adminInfo
    · subst heq
      unfold adminInfo
      omega
    · have hap := h.apart.start_not_mem hx hin heq
      dsimp only at hap
      unfold adminInfo at *
      omega
  · rw [hsz]
    exact hbin

/-- What is done with other blocks than the one at `p`. -/
def Leaves (p : Int) : MemStep → Prop
  | .free q => q ≠ p
  | .store q _ _ => q ≠ p
  | _ => True

theorem Layout.contents {b : Bool} (h : Layout P s f) (hp : s.used p = some (numBytes, b))
    (hr : Run (Memory.step P) (fun s l => Promised P s l ∧ Leaves p l) s t) :
    t.used p = some (numBytes, b) ∧ ∀ a, p ≤ a → a < p + numBytes → t.mem a = s.mem a := by
  have hinv := hr.invariant (I := fun u => (∃ g, Layout P u g) ∧ u.used p = some (numBytes, b) ∧
    ∀ a, p ≤ a → a < p + numBytes → u.mem a = s.mem a) ?_ ⟨⟨f, h⟩, hp, fun _ _ _ => rfl⟩
  · exact hinv.2
  · rintro u l v ⟨⟨g, hg⟩, hu, hsame⟩ ⟨hl, hleaves⟩ hs
    obtain ⟨g', hg', hstays⟩ := hg.step hl hs
    have hstay := hstays p numBytes b hu
    refine ⟨⟨g', hg'⟩, hstay.used ?_, fun a hle hlt => ?_⟩
    · rintro rfl
      exact hleaves rfl
    · rw [hstay.contents a hle hlt, hsame a hle hlt]
      rintro off v rfl
      exact absurd rfl hleaves

/-- In every state of the allocator what is in use is sound, and keeps its contents until freed. -/
theorem blocks_sound {mem : Int → Int} (hr : Run (Memory.step P) (Promised P) (init P mem) s) :
    (∀ p n b, s.used p = some (n, b) → Sound P s p n b) ∧
    (∀ p n b t, s.used p = some (n, b) → Run (Memory.step P) (fun s l => Promised P s l ∧ Leaves p l) s t →
      t.used p = some (n, b) ∧ ∀ a, p ≤ a → a < p + n → t.mem a = s.mem a) ∧
    (∀ n chunk fuel t, Promised P s (.malloc n chunk fuel) → s.malloc P n chunk fuel = some t →
      ∃ p, s.used p = none ∧ t.used = update s.used p (some (n, s.binned (bytesToBlocksize n)))) ∧
    ∀ p n b, s.used p = some (n, b) → ∃ t, s.free p = some t ∧ t.used = update s.used p none ∧ Returned s t p n b := by
  obtain ⟨f, h⟩ := run_layout hr
  refine ⟨fun p n b hp => h.sound hp, fun p n b t hp ht => h.contents hp ht, fun n chunk fuel t hl hs => ?_, fun p n b hp => ?_⟩
  · obtain ⟨g, -, ⟨p, hgiven⟩, -⟩ := h.malloc hl.2 hs
    exact ⟨p, hgiven.fresh, hgiven.used⟩
  · obtain ⟨t, g, hs, -, hret, hused, -⟩ := h.free hp
    exact ⟨t, hs, hused, hret⟩

instance (asked : Int) (c : Int × Int) : Decidable (ValidChunk P s asked c) :=
  decidable_of_iff ((c.1 % 4 = 0 ∧ c.2 % 4 = 0) ∧ asked ≤ c.2 ∧ (∀ r ∈ s.regions, c.1 + c.2 ≤ r.1 ∨ r.1 + r.2 ≤ c.1) ∧
    (c.1 + c.2 ≤ P.firstArray ∨ P.firstArray + 12 ≤ c.1) ∧ (c.1 + c.2 ≤ P.lastArray ∨ P.lastArray + 12 ≤ c.1))
    ⟨fun h => ⟨h.1, h.2.1, h.2.2.1, h.2.2.2⟩, fun h => ⟨h.words, h.long, h.regions, h.statics⟩⟩

instance : ∀ l, Decidable (Promised P s l)
  | .bin _ => isTrue trivial
  | .malloc numBytes none _ => decidable_of_iff (bytesToBlocksize numBytes < 2 ^ 31) ⟨fun h => ⟨h, nofun⟩, fun h => h.1⟩
  | .malloc numBytes (some c) _ =>
    decidable_of_iff (bytesToBlocksize numBytes < 2 ^ 31 ∧ ValidChunk P s (s.asked numBytes) c)
      ⟨fun h => ⟨h.1, fun _ hc => Option.some.inj hc ▸ h.2⟩, fun h => ⟨h.1, h.2 c rfl⟩⟩
  | .free blockPtr => inferInstanceAs (Decidable (s.used blockPtr ≠ none))
  | .store blockPtr off _ =>
    match hp : s.used blockPtr with
    | none => isFalse fun ⟨n, b, h, _⟩ => by rw [hp] at h; cases h
    | some (n, b) => decidable_of_iff (0 ≤ off ∧ off < n ∧ off % 4 = 0)
        ⟨fun h => ⟨n, b, hp, h⟩, fun ⟨n', b', h, h'⟩ => by
          rw [hp] at h
          obtain ⟨rfl, rfl⟩ := Prod.mk.inj (Option.some.inj h)
          exact h'⟩

def twoArrays : Statics := ⟨0, 16, by decide⟩

/-- The third region begins where the second one ends. -/
def mergedRegions : List MemStep :=
  [.malloc 5000 (some (10000, 5016)) 5, .free 10008, .malloc 5000 (some (20000, 9000)) 9, .malloc 4500 (some (29000, 4520)) 9,
    .free 29000, .malloc 6000 none 20]

theorem mergedRegions_run : ∃ s, Run (Memory.step twoArrays) (Promised twoArrays) (init twoArrays fun _ => 0) s ∧
    s.used 25016 = some (6000, false) ∧ ∀ r ∈ s.regions, ¬ (r.1 ≤ 25016 ∧ 25016 + 6000 ≤ r.1 + r.2) := by
  have h : ((exec (guarded (Promised twoArrays) (Memory.step twoArrays)) (init twoArrays fun _ => 0) mergedRegions).any fun s =>
      s.used 25016 = some (6000, false) ∧ ∀ r ∈ s.regions, ¬ (r.1 ≤ 25016 ∧ 25016 + 6000 ≤ r.1 + r.2)) = true := by decide +kernel
  obtain ⟨s, hs, hp⟩ := (Option.any_eq_true _ _).1 h
  exact ⟨s, run_of_guarded _ _ _ hs, of_decide_eq_true hp⟩

/-- A block that lies in no one of the regions that were supplied, but in two of them. -/
theorem block_in_two_regions : ¬ ∀ (P : Statics) (mem : Int → Int) (s : Memory),
    Run (Memory.step P) (Promised P) (init P mem) s → ∀ p n b, s.used p = some (n, b) →
      ∃ r ∈ s.regions, r.1 ≤ p ∧ p + n ≤ r.1 + r.2 := by
  intro hall
  obtain ⟨s, hr, hp, hnone⟩ := mergedRegions_run
  obtain ⟨r, hmem, hin⟩ := hall twoArrays _ s hr _ _ _ hp
  exact hnone r hmem hin

theorem blocks_sound_merged : ∃ s, s.used 25016 = some (6000, false) ∧ Sound twoArrays s 25016 6000 false := by
  obtain ⟨s, hr, hp, -⟩ := mergedRegions_run
  exact ⟨s, hp, (blocks_sound hr).1 _ _ _ hp⟩

end Memory
end SpriteKernel.Mem
