import Mathlib.Data.List.Nodup
import SpriteKernel.Lib.Spans
import SpriteKernel.Mem.Memory

/- How the allocator's memory is laid out: which blocks there are, each with its administrative word. A region's
   large blocks follow each other up to a dummy block, which links to another region's first block or to `last`; a
   bin's free blocks are linked by their words. -/
namespace SpriteKernel.Mem

open Function List
open Spans

inductive Kind where
  | free
  | used
  | dummy (target : Int)
  | binFree
  | binUsed
  deriving DecidableEq

namespace Kind

/-- The blocks of the large-object allocator. -/
def large : Kind → Bool
  | free | used | dummy _ => true
  | _ => false

/-- The large blocks that are followed by another one. -/
def body : Kind → Bool
  | free | used => true
  | _ => false

def inUse : Kind → Bool
  | used | binUsed => true
  | _ => false

/-- The administrative word of a block; that of a free binned block is a link. -/
def word (a size m : Int) : Kind → Prop
  | free => m = size
  | used | binUsed => m = size + 1
  | dummy target => target % 4 = 0 ∧ m = target - a + 3
  | binFree => True

end Kind

/-- The free list that begins with the block `h`. -/
def Linked (mem : Int → Int) : Int → List Int → Prop
  | h, [] => h = nil
  | h, a :: l => h = a ∧ Linked mem (mem a) l

namespace Linked
variable {mem mem' : Int → Int} {h : Int} {l : List Int}

theorem congr (hl : Linked mem h l) (hsame : ∀ a ∈ l, mem' a = mem a) : Linked mem' h l := by
  induction l generalizing h with
  | nil => exact hl
  | cons b l ih =>
    obtain ⟨rfl, hl⟩ := hl
    refine ⟨rfl, ?_⟩
    rw [hsame h mem_cons_self]
    exact ih hl fun a ha => hsame a (mem_cons_of_mem _ ha)

theorem link_mem {c : Int} (hl : Linked mem h l) (hc : c ∈ l) (hne : mem c ≠ nil) : mem c ∈ l := by
  induction l generalizing h with
  | nil => cases hc
  | cons b l ih =>
    obtain ⟨rfl, hl⟩ := hl
    obtain rfl | hc := mem_cons.1 hc
    · cases l with
      | nil => exact absurd hl hne
      | cons d l =>
        obtain ⟨hd, -⟩ := hl
        rw [hd]
        exact mem_cons_of_mem _ mem_cons_self
    · exact mem_cons_of_mem _ (ih hl hc)

end Linked

abbrev Blocks := Int → Option (Span Kind)

namespace Memory
variable {P : Statics} {s t : Memory} {f g : Blocks} {a b p n m : Int} {x y z : Span Kind}

def Supplied (s : Memory) (a : Int) : Prop := ∃ r ∈ s.regions, r.1 ≤ a ∧ a < r.1 + r.2

def Large (f : Blocks) (a : Int) : Prop := ∃ x, f a = some x ∧ x.kind.large = true

structure Layout (P : Statics) (s : Memory) (f : Blocks) : Prop where
  apart : Apart f
  aligned : ∀ a x, f a = some x → a % 4 = 0 ∧ x.size % 4 = 0
  word : ∀ a x, f a = some x → x.kind.word a x.size (s.mem a)
  next : ∀ a x, f a = some x → x.kind.body = true → Large f (a + x.size) ∧ a + x.size ≠ P.last
  target : ∀ a n t, f a = some ⟨n, .dummy t⟩ → Large f t
  entry : ∀ a x d n t, f a = some x → x.kind.body = true → f d = some ⟨n, .dummy t⟩ → a + x.size ≠ t
  first : ∃ t, f P.first = some ⟨4, .dummy t⟩
  last : ∃ t, f P.last = some ⟨4, .dummy t⟩
  dummy : ∀ a n t, f a = some ⟨n, .dummy t⟩ → a ≠ P.first → a ≠ P.last → n = 8
  current : Large f s.currentPtr
  inside : ∀ a x, f a = some x → a ≠ P.first → a ≠ P.last → ∀ b, a ≤ b → b < a + x.size → s.Supplied b
  bins : ∀ i, ∃ l, Linked s.mem (s.freeLists i) l ∧ l.Nodup ∧ ∀ a, a ∈ l ↔ f a = some ⟨8 * i, .binFree⟩
  binSize : ∀ a x, f a = some x → x.kind = .binFree ∨ x.kind = .binUsed → s.binned x.size = true ∧ x.size % 8 = 0
  largeSize : ∀ a x, f a = some x → x.kind = .used → s.binned x.size = false
  inUse : ∀ p n b, s.used p = some (n, b) → f (p - adminInfo) = some ⟨bytesToBlocksize n, if b then .binUsed else .used⟩
  fresh : s.numAllocs = 0 → ∀ a x, f a = some x → a = P.first ∨ a = P.last
  small : s.numBlocks 2 ≠ -1
  counts : ∀ i, -1 ≤ s.numBlocks i

/-- The allocator stores nothing in a block that somebody has. -/
def Kept (s t : Memory) : Prop := ∀ p n b, s.used p = some (n, b) → ∀ a, p ≤ a → a < p + n → t.mem a = s.mem a

/-- No block in use has the address. -/
def Spare (f : Blocks) (a : Int) : Prop := ∀ b x, f b = some x → x.kind.inUse = true → a < b ∨ b + x.size ≤ a

theorem Kept.refl (s : Memory) : s.Kept s := fun _ _ _ _ _ _ _ => rfl

theorem Kept.trans {u : Memory} (h : s.Kept t) (hu : t.used = s.used) (h' : t.Kept u) : s.Kept u := by
  intro p n b hp a hle hlt
  rw [h' p n b (by rw [hu]; exact hp) a hle hlt]
  exact h p n b hp a hle hlt

theorem le_bytesToBlocksize (n : Nat) : (n : Int) + adminInfo ≤ bytesToBlocksize n := by
  unfold bytesToBlocksize adminInfo
  omega

theorem bytesToBlocksize_pos (n : Nat) : 8 ≤ bytesToBlocksize n ∧ bytesToBlocksize n % 8 = 0 := by
  unfold bytesToBlocksize adminInfo
  omega

theorem Layout.kept_setAdmin (h : Layout P s f) (ha : Spare f a) : s.Kept (s.setAdmin a m) := by
  intro p n b hp c hle hlt
  have hin := h.inUse p n b hp
  have hfit := le_bytesToBlocksize n
  refine update_of_ne ?_ _ _
  obtain hlt' | hle' := ha _ _ hin (by cases b <;> rfl)
  · unfold adminInfo at hlt'
    omega
  · dsimp only at hle'
    omega

theorem spare_of_mem (hf : Apart f) (hx : f a = some x) (hfree : x.kind.inUse = false) (hle : a ≤ b) (hlt : b < a + x.size) :
    Spare f b := by
  intro c y hy hin
  have hne : a ≠ c := by
    rintro rfl
    cases hx.symm.trans hy
    rw [hfree] at hin
    cases hin
  obtain hac | hac := hf.apart a c x y hx hy hne
  · exact .inl (by omega)
  · exact .inr (by omega)

section
variable (h : Layout P s f)
include h

theorem Layout.spare_of_unsupplied (ha : ¬ s.Supplied a) : Spare f a := by
  intro b x hx hin
  by_contra hnot
  refine ha (h.inside b x hx ?_ ?_ a (by omega) (by omega))
  · rintro rfl
    obtain ⟨t, ht⟩ := h.first
    cases ht.symm.trans hx
    cases hin
  · rintro rfl
    obtain ⟨t, ht⟩ := h.last
    cases ht.symm.trans hx
    cases hin

/-- The free lists of the bins, where neither their blocks nor the words of these have changed. -/
theorem Layout.bins_of_eq (hlists : t.freeLists = s.freeLists)
    (hmem : ∀ a n, f a = some ⟨n, .binFree⟩ → t.mem a = s.mem a)
    (hg : ∀ a n, g a = some ⟨n, .binFree⟩ ↔ f a = some ⟨n, .binFree⟩) (i : Nat) :
    ∃ l, Linked t.mem (t.freeLists i) l ∧ l.Nodup ∧ ∀ a, a ∈ l ↔ g a = some ⟨8 * i, .binFree⟩ := by
  obtain ⟨l, hl, hnodup, hmemb⟩ := h.bins i
  refine ⟨l, ?_, hnodup, fun a => (hmemb a).trans (hg a _).symm⟩
  rw [hlists]
  exact hl.congr fun a ha => hmem a _ ((hmemb a).1 ha)

section
variable (hx : f a = some x)
include hx

/-- The free lists of the bins, where a block that is on none of them becomes another such block. -/
theorem Layout.bins_setKind {k : Kind} (hxk : x.kind ≠ .binFree) (hk : k ≠ .binFree)
    (hlists : t.freeLists = s.freeLists) (hmem : t.mem = update s.mem a m) (i : Nat) :
    ∃ l, Linked t.mem (t.freeLists i) l ∧ l.Nodup ∧ ∀ b, b ∈ l ↔ put f a ⟨x.size, k⟩ b = some ⟨8 * i, .binFree⟩ := by
  have hne : ∀ n, f a ≠ some ⟨n, .binFree⟩ := by
    intro n heq
    rw [hx] at heq
    exact hxk (by rw [Option.some.inj heq])
  refine h.bins_of_eq hlists (fun b n hb => ?_) (fun b n => ?_) i
  · rw [hmem]
    refine update_of_ne ?_ _ _
    rintro rfl
    exact hne n hb
  · by_cases hb : b = a
    · subst hb
      refine ⟨fun heq => ?_, fun heq => absurd heq (hne n)⟩
      rw [put_self] at heq
      injection heq with heq
      injection heq with _ heq
      exact absurd heq hk
    · rw [put_of_ne hb]

theorem Layout.setKind {k : Kind} (hmem : t.mem = update s.mem a m)
    (hword : k.word a x.size m) (hlarge : k.large = x.kind.large) (hbody : k.body = x.kind.body)
    (htarget : ∀ u, k = .dummy u → Large f u ∧ ∀ b y, f b = some y → y.kind.body = true → b + y.size ≠ u)
    (hbins : ∀ i, ∃ l, Linked t.mem (t.freeLists i) l ∧ l.Nodup ∧ ∀ b, b ∈ l ↔ put f a ⟨x.size, k⟩ b = some ⟨8 * i, .binFree⟩)
    (hsize : k = .used → s.binned x.size = false)
    (huse : ∀ p n b, t.used p = some (n, b) →
      put f a ⟨x.size, k⟩ (p - adminInfo) = some ⟨bytesToBlocksize n, if b then .binUsed else .used⟩)
    (hcurrent : t.currentPtr = s.currentPtr) (hregions : t.regions = s.regions) (hblocks : t.numBlocks = s.numBlocks)
    (hallocs : t.numAllocs = 0 → s.numAllocs = 0) : Layout P t (put f a ⟨x.size, k⟩) := by
  have hold : ∀ b y, put f a ⟨x.size, k⟩ b = some y →
      ∃ z, f b = some z ∧ y.size = z.size ∧ y.kind.large = z.kind.large ∧ y.kind.body = z.kind.body ∧ (b ≠ a → y = z) ∧
        (b = a → y.kind = k) := by
    intro b y hy
    obtain ⟨rfl, rfl⟩ | ⟨hb, hy⟩ := put_eq_some hy
    · exact ⟨x, hx, rfl, hlarge, hbody, fun hne => absurd rfl hne, fun _ => rfl⟩
    · exact ⟨y, hy, rfl, rfl, rfl, fun _ => rfl, fun heq => absurd heq hb⟩
  have hL : ∀ b, Large f b → Large (put f a ⟨x.size, k⟩) b := by
    rintro b ⟨z, hz, hzl⟩
    by_cases hb : b = a
    · subst hb
      cases hx.symm.trans hz
      exact ⟨_, put_self, hlarge.trans hzl⟩
    · exact ⟨z, (put_of_ne hb).trans hz, hzl⟩
  have hbinned : ∀ n, t.binned n = s.binned n := by
    intro n
    unfold binned
    rw [hblocks]
  have hbody' : ∀ b y, put f a ⟨x.size, k⟩ b = some y → y.kind.body = true → ∃ z, f b = some z ∧ z.size = y.size ∧
      z.kind.body = true := by
    intro b y hy hyb
    obtain ⟨z, hz, hsz, -, hbd, -⟩ := hold b y hy
    exact ⟨z, hz, hsz.symm, hbd.symm.trans hyb⟩
  have hdummy : ∀ b n u, put f a ⟨x.size, k⟩ b = some ⟨n, .dummy u⟩ →
      Large f u ∧ ∀ c y, f c = some y → y.kind.body = true → c + y.size ≠ u := by
    intro b n u hb
    obtain ⟨z, hz, -, -, -, hne, heq⟩ := hold b _ hb
    by_cases hba : b = a
    · exact htarget u (heq hba).symm
    · obtain rfl := hne hba
      exact ⟨h.target b n u hz, fun c y hc hy => h.entry c y b n u hc hy hz⟩
  have hstatic : ∀ c, (∃ u, f c = some ⟨4, .dummy u⟩) → ∃ u, put f a ⟨x.size, k⟩ c = some ⟨4, .dummy u⟩ := by
    rintro c ⟨u, hu⟩
    by_cases hc : c = a
    · subst hc
      cases hx.symm.trans hu
      cases k with
      | dummy u' => exact ⟨u', put_self⟩
      | free => cases hbody
      | used => cases hbody
      | binFree => cases hlarge
      | binUsed => cases hlarge
    · exact ⟨u, (put_of_ne hc).trans hu⟩
  refine ⟨h.apart.put_within hx (h.apart.pos a x hx) (Int.le_refl _), ?_, ?_, ?_, ?_, ?_, hstatic _ h.first, hstatic _ h.last, ?_,
    ?_, ?_, hbins, ?_, ?_, huse, ?_, ?_, ?_⟩
  · intro b y hy
    obtain ⟨z, hz, hsz, -⟩ := hold b y hy
    rw [hsz]
    exact h.aligned b z hz
  · intro b y hy
    obtain ⟨rfl, rfl⟩ | ⟨hb, hy⟩ := put_eq_some hy
    · rw [hmem, update_self]
      exact hword
    · rw [hmem, update_of_ne hb]
      exact h.word b y hy
  · intro b y hy hyb
    obtain ⟨z, hz, hsz, hzb⟩ := hbody' b y hy hyb
    rw [← hsz]
    exact ⟨hL _ (h.next b z hz hzb).1, (h.next b z hz hzb).2⟩
  · intro b n u hb
    exact hL u (hdummy b n u hb).1
  · intro b y d n u hy hyb hd
    obtain ⟨z, hz, hsz, hzb⟩ := hbody' b y hy hyb
    rw [← hsz]
    exact (hdummy d n u hd).2 b z hz hzb
  · intro b n u hb hf hl
    obtain ⟨z, hz, hsz, hlg, hbd, -⟩ := hold b _ hb
    obtain ⟨sz, kz⟩ := z
    cases kz with
    | dummy u' => exact hsz.trans (h.dummy b sz u' hz hf hl)
    | free => cases hbd
    | used => cases hbd
    | binFree => cases hlg
    | binUsed => cases hlg
  · rw [hcurrent]
    exact hL _ h.current
  · intro b y hy hf hl c hle hlt
    obtain ⟨z, hz, hsz, -⟩ := hold b y hy
    obtain ⟨r, hr, hin⟩ := h.inside b z hz hf hl c hle (by omega)
    exact ⟨r, by rw [hregions]; exact hr, hin⟩
  · intro b y hy hk
    obtain ⟨z, hz, hsz, hlg, -⟩ := hold b y hy
    rw [hsz, hbinned]
    refine h.binSize b z hz ?_
    have hzl : z.kind.large = false := by
      rw [← hlg]
      obtain hk | hk := hk <;> rw [hk] <;> rfl
    cases hkz : z.kind with
    | binFree => exact .inl rfl
    | binUsed => exact .inr rfl
    | _ =>
      rw [hkz] at hzl
      cases hzl
  · intro b y hy hk
    rw [hbinned]
    obtain ⟨rfl, rfl⟩ | ⟨hb, hy⟩ := put_eq_some hy
    · exact hsize hk
    · exact h.largeSize b y hy hk
  · intro h0 b y hy
    obtain ⟨z, hz, -⟩ := hold b y hy
    exact h.fresh (hallocs h0) b z hz
  · rw [hblocks]
    exact h.small
  · intro i
    rw [hblocks]
    exact h.counts i

theorem Layout.ne_first (hk : x.kind.body = true) : a ≠ P.first := by
  rintro rfl
  obtain ⟨u, hu⟩ := h.first
  cases hu.symm.trans hx
  cases hk

theorem Layout.ne_last (hk : x.kind.body = true) : a ≠ P.last := by
  rintro rfl
  obtain ⟨u, hu⟩ := h.last
  cases hu.symm.trans hx
  cases hk

theorem Layout.eq_of_next (hy : f b = some y) (hn : a + x.size = b + y.size) : a = b := by
  by_contra hne
  have hxp := h.apart.pos a x hx
  have hyp := h.apart.pos b y hy
  obtain hle | hle := h.apart.apart a b x y hx hy hne <;> omega

end

end

/-- The blocks of `g` are new large ones, or blocks of `f` with the words that they had. -/
structure Rebuilt (P : Statics) (s t : Memory) (f g : Blocks) (new : Int → Span Kind → Prop) : Prop where
  apart : Apart g
  hold : ∀ b y, g b = some y → new b y ∨ f b = some y ∧ t.mem b = s.mem b
  large : ∀ b y, new b y → y.kind.large = true
  aligned : ∀ b y, new b y → b % 4 = 0 ∧ y.size % 4 = 0
  word : ∀ b y, new b y → y.kind.word b y.size (t.mem b)
  used : ∀ b y, new b y → y.kind = .used → s.binned y.size = false
  inside : ∀ b y, new b y → ∀ c, b ≤ c → c < b + y.size → t.Supplied c
  fresh : s.numAllocs = 0 → ∀ b y, ¬new b y
  body : ∀ b y, new b y → y.kind.body = true → Large g (b + y.size) ∧ b + y.size ≠ P.last ∧
    ∀ d m u, g d = some ⟨m, .dummy u⟩ → b + y.size ≠ u
  dummy : ∀ b m u, new b ⟨m, .dummy u⟩ → m = 8 ∧ Large g u ∧ ∀ c y, f c = some y → y.kind.body = true → c + y.size ≠ u
  next : ∀ b y, f b = some y → g b = some y → y.kind.body = true → Large g (b + y.size)
  target : ∀ d m u, f d = some ⟨m, .dummy u⟩ → Large g u
  kept : ∀ b y, f b = some y → y.kind.large = false ∨ y.kind.inUse = true ∨ b = P.first ∨ b = P.last → g b = some y
  current : Large g s.currentPtr

section
variable (h : Layout P s f)
include h

theorem Layout.rebuild (new : Int → Span Kind → Prop) (r : Rebuilt P s t f g new)
    (hregions : ∀ c, s.Supplied c → t.Supplied c) (hcurrent : t.currentPtr = s.currentPtr) (hlists : t.freeLists = s.freeLists)
    (hused : t.used = s.used) (hblocks : t.numBlocks = s.numBlocks) (hallocs : t.numAllocs = s.numAllocs) : Layout P t g := by
  have hbinned : ∀ n, t.binned n = s.binned n := by
    intro n
    unfold binned
    rw [hblocks]
  have hbin : ∀ b m, f b = some ⟨m, .binFree⟩ → g b = some ⟨m, .binFree⟩ := fun b m hb => r.kept b _ hb (.inl rfl)
  have hkinds : ∀ b m, g b = some ⟨m, .binFree⟩ → f b = some ⟨m, .binFree⟩ ∧ t.mem b = s.mem b := by
    intro b m hb
    obtain hnew | hold := r.hold b _ hb
    · cases r.large b _ hnew
    · exact hold
  refine ⟨r.apart, ?_, ?_, ?_, ?_, ?_, ?_, ?_, ?_, hcurrent ▸ r.current, ?_,
    h.bins_of_eq hlists (fun b m hb => (hkinds b m (hbin b m hb)).2) fun b m => ⟨fun hb => (hkinds b m hb).1, hbin b m⟩, ?_, ?_, ?_, ?_,
    ?_, ?_⟩
  · intro b y hy
    obtain hnew | ⟨hy, -⟩ := r.hold b y hy
    · exact r.aligned b y hnew
    · exact h.aligned b y hy
  · intro b y hy
    obtain hnew | ⟨hy, hmem⟩ := r.hold b y hy
    · exact r.word b y hnew
    · rw [hmem]
      exact h.word b y hy
  · intro b y hy hyb
    obtain hnew | ⟨hfy, -⟩ := r.hold b y hy
    · exact ⟨(r.body b y hnew hyb).1, (r.body b y hnew hyb).2.1⟩
    · exact ⟨r.next b y hfy hy hyb, (h.next b y hfy hyb).2⟩
  · intro d m u hd
    obtain hnew | ⟨hd, -⟩ := r.hold d _ hd
    · exact (r.dummy d m u hnew).2.1
    · exact r.target d m u hd
  · intro b y d m u hy hyb hd
    obtain hnew | ⟨hfy, -⟩ := r.hold b y hy
    · exact (r.body b y hnew hyb).2.2 d m u hd
    · obtain hnew | ⟨hd, -⟩ := r.hold d _ hd
      · exact (r.dummy d m u hnew).2.2 b y hfy hyb
      · exact h.entry b y d m u hfy hyb hd
  · obtain ⟨u, hu⟩ := h.first
    exact ⟨u, r.kept _ _ hu (.inr (.inr (.inl rfl)))⟩
  · obtain ⟨u, hu⟩ := h.last
    exact ⟨u, r.kept _ _ hu (.inr (.inr (.inr rfl)))⟩
  · intro d m u hd hf hl
    obtain hnew | ⟨hd, -⟩ := r.hold d _ hd
    · exact (r.dummy d m u hnew).1
    · exact h.dummy d m u hd hf hl
  · intro b y hy hf hl c hle hlt
    obtain hnew | ⟨hy, -⟩ := r.hold b y hy
    · exact r.inside b y hnew c hle hlt
    · exact hregions c (h.inside b y hy hf hl c hle hlt)
  · intro b y hy hk
    rw [hbinned]
    obtain hnew | ⟨hy, -⟩ := r.hold b y hy
    · have hlarge := r.large b y hnew
      obtain hk | hk := hk <;> rw [hk] at hlarge <;> cases hlarge
    · exact h.binSize b y hy hk
  · intro b y hy hk
    rw [hbinned]
    obtain hnew | ⟨hy, -⟩ := r.hold b y hy
    · exact r.used b y hnew hk
    · exact h.largeSize b y hy hk
  · intro p m b hp
    refine r.kept _ _ (h.inUse p m b (hused ▸ hp)) (.inr (.inl ?_))
    cases b <;> rfl
  · intro h0 b y hy
    rw [hallocs] at h0
    obtain hnew | ⟨hy, -⟩ := r.hold b y hy
    · exact absurd hnew (r.fresh h0 b y)
    · exact h.fresh h0 b y hy
  · rw [hblocks]
    exact h.small
  · intro i
    rw [hblocks]
    exact h.counts i

theorem Layout.not_free (hy : f b = some y)
    (hc : y.kind.large = false ∨ y.kind.inUse = true ∨ b = P.first ∨ b = P.last) : y.kind ≠ .free := by
  intro hk
  obtain hl | hu | hb | hb := hc
  · rw [hk] at hl
    cases hl
  · rw [hk] at hu
    cases hu
  · exact h.ne_first hy (by rw [hk]; rfl) hb
  · exact h.ne_last hy (by rw [hk]; rfl) hb

/-- Nothing but the dummy blocks of `first` and `last` is there before the first allocation. -/
theorem Layout.not_fresh (hx : f a = some x) (hk : x.kind.body = true) : s.numAllocs ≠ 0 := fun h0 =>
  absurd (h.fresh h0 a x hx) (not_or.2 ⟨h.ne_first hx hk, h.ne_last hx hk⟩)

theorem Layout.merge {k : Int} (hx : f a = some ⟨n, .free⟩) (hy : f (a + n) = some ⟨k, .free⟩)
    (hcur : s.currentPtr ≠ a + n) :
    Layout P (s.setAdmin a (n + k)) (put (remove f (a + n)) a ⟨n + k, .free⟩) := by
  have hk : 0 < k := h.apart.pos _ _ hy
  have hnew : ∀ b, b ≠ a → b ≠ a + n → put (remove f (a + n)) a ⟨n + k, .free⟩ b = f b := fun b hba hbn =>
    (put_of_ne hba).trans (remove_of_ne hbn)
  have hL : ∀ b, Large f b → b ≠ a + n → Large (put (remove f (a + n)) a ⟨n + k, .free⟩) b := by
    rintro b ⟨z, hz, hzl⟩ hbn
    by_cases hba : b = a
    · subst hba
      exact ⟨_, put_self, rfl⟩
    · exact ⟨z, (hnew b hba hbn).trans hz, hzl⟩
  have hfree : ∀ b z, f b = some z → z.kind ≠ .free → b ≠ a ∧ b ≠ a + n := by
    intro b z hz hzk
    constructor <;> rintro rfl
    · cases hx.symm.trans hz
      exact hzk rfl
    · cases hy.symm.trans hz
      exact hzk rfl
  have hentry : ∀ d m u, f d = some ⟨m, .dummy u⟩ → u ≠ a + n ∧ u ≠ a + n + k := fun d m u hd =>
    ⟨(h.entry a _ d m u hx rfl hd).symm, (h.entry _ _ d m u hy rfl hd).symm⟩
  refine h.rebuild (fun b y => b = a ∧ y = ⟨n + k, .free⟩) ⟨h.apart.merge hx hy rfl, ?_, ?_, ?_, ?_, ?_, ?_, ?_, ?_, ?_, ?_, ?_, ?_,
    hL _ h.current hcur⟩ (fun _ => id) rfl rfl rfl rfl rfl
  · intro b z hz
    obtain hz | ⟨hba, hz⟩ := put_eq_some hz
    · exact .inl hz
    · exact .inr ⟨(remove_eq_some hz).2, update_of_ne hba _ _⟩
  · rintro b z ⟨-, rfl⟩
    rfl
  · rintro b z ⟨rfl, rfl⟩
    have h₁ := h.aligned b _ hx
    have h₂ := h.aligned _ _ hy
    dsimp only at h₁ h₂ ⊢
    omega
  · rintro b z ⟨rfl, rfl⟩
    exact update_self _ _ _
  · rintro b z ⟨-, rfl⟩ hk'
    cases hk'
  · rintro b z ⟨rfl, rfl⟩ c hle hlt
    by_cases hc : c < b + n
    · exact h.inside b _ hx (h.ne_first hx rfl) (h.ne_last hx rfl) c hle hc
    · refine h.inside _ _ hy (h.ne_first hy rfl) (h.ne_last hy rfl) c (by omega) ?_
      dsimp only at hlt ⊢
      omega
  · exact fun h0 => absurd h0 (h.not_fresh hx rfl)
  · rintro b z ⟨rfl, rfl⟩ -
    obtain ⟨hl, hne'⟩ := h.next _ _ hy rfl
    rw [← Int.add_assoc]
    refine ⟨hL _ hl (by omega), hne', fun d m u hd => ?_⟩
    obtain ⟨-, heq⟩ | ⟨-, hd⟩ := put_eq_some hd
    · cases heq
    · exact (hentry d m u (remove_eq_some hd).2).2.symm
  · rintro b m u ⟨-, heq⟩
    cases heq
  · intro b z hz hgz hzb
    refine hL _ (h.next b z hz hzb).1 fun heq => ?_
    obtain rfl := h.eq_of_next hz hx heq
    cases hx.symm.trans hz
    rw [put_self] at hgz
    injection hgz with heq
    injection heq
    omega
  · exact fun d m u hd => hL u (h.target d m u hd) (hentry d m u hd).1
  · intro b z hz hc
    obtain ⟨hba, hbn⟩ := hfree b z hz (h.not_free hz hc)
    exact (hnew b hba hbn).trans hz

/-- The first `k` bytes of a free block are allocated, and the rest is a free block. -/
theorem Layout.split {k : Int} (hx : f a = some ⟨n, .free⟩) (hk : 0 < k) (hkn : k < n) (hk4 : k % 4 = 0)
    (hbin : s.binned k = false) :
    Layout P ((s.setAdmin (a + k) (n - k)).setAdmin a (k + 1)) (put (put f a ⟨k, .used⟩) (a + k) ⟨n - k, .free⟩) := by
  have hne : a + k ≠ a := by omega
  have hnone : ∀ z, f (a + k) ≠ some z := by
    intro z hz
    have hz0 := h.apart.pos _ z hz
    obtain hle | hle := h.apart.apart a (a + k) _ z hx hz hne.symm
    · dsimp only at hle
      omega
    · omega
  have hself : put (put f a ⟨k, .used⟩) (a + k) ⟨n - k, .free⟩ a = some ⟨k, .used⟩ := by
    rw [put_of_ne hne.symm, put_self]
  have hother : ∀ b z, f b = some z → b ≠ a → put (put f a ⟨k, .used⟩) (a + k) ⟨n - k, .free⟩ b = some z := by
    intro b z hz hba
    have hbk : b ≠ a + k := by
      rintro rfl
      exact hnone z hz
    rw [put_of_ne hbk, put_of_ne hba]
    exact hz
  have hL : ∀ b, Large f b → Large (put (put f a ⟨k, .used⟩) (a + k) ⟨n - k, .free⟩) b := by
    rintro b ⟨z, hz, hzl⟩
    by_cases hba : b = a
    · subst hba
      exact ⟨_, hself, rfl⟩
    · exact ⟨z, hother b z hz hba, hzl⟩
  have hdummy : ∀ d m u, put (put f a ⟨k, .used⟩) (a + k) ⟨n - k, .free⟩ d = some ⟨m, .dummy u⟩ → f d = some ⟨m, .dummy u⟩ := by
    intro d m u hd
    obtain ⟨-, heq⟩ | ⟨-, hd⟩ := put_eq_some hd
    · cases heq
    · obtain ⟨-, heq⟩ | ⟨-, hd⟩ := put_eq_some hd
      · cases heq
      · exact hd
  have haligned := h.aligned a _ hx
  dsimp only at haligned
  refine h.rebuild (fun b y => b = a + k ∧ y = ⟨n - k, .free⟩ ∨ b = a ∧ y = ⟨k, .used⟩)
    ⟨h.apart.split hx hk (by dsimp only; omega) (by dsimp only; omega), ?_, ?_, ?_, ?_, ?_, ?_, ?_, ?_, ?_, ?_, ?_, ?_, hL _ h.current⟩
    (fun _ => id) rfl rfl rfl rfl rfl
  · intro b z hz
    obtain hz | ⟨hbk, hz⟩ := put_eq_some hz
    · exact .inl (.inl hz)
    · obtain hz | ⟨hba, hz⟩ := put_eq_some hz
      · exact .inl (.inr hz)
      · exact .inr ⟨hz, (update_of_ne hba _ _).trans (update_of_ne hbk _ _)⟩
  · rintro b z (⟨-, rfl⟩ | ⟨-, rfl⟩) <;> rfl
  · rintro b z (⟨rfl, rfl⟩ | ⟨rfl, rfl⟩)
    · dsimp only
      omega
    · exact ⟨haligned.1, hk4⟩
  · rintro b z (⟨rfl, rfl⟩ | ⟨rfl, rfl⟩)
    · exact (update_of_ne hne _ _).trans (update_self _ _ _)
    · exact update_self _ _ _
  · rintro b z (⟨-, rfl⟩ | ⟨-, rfl⟩) hk'
    · cases hk'
    · exact hbin
  · rintro b z (⟨rfl, rfl⟩ | ⟨rfl, rfl⟩) c hle hlt <;> dsimp only at hlt
    · exact h.inside a _ hx (h.ne_first hx rfl) (h.ne_last hx rfl) c (by omega) (by dsimp only; omega)
    · exact h.inside b _ hx (h.ne_first hx rfl) (h.ne_last hx rfl) c hle (by dsimp only; omega)
  · exact fun h0 => absurd h0 (h.not_fresh hx rfl)
  · rintro b z (⟨rfl, rfl⟩ | ⟨rfl, rfl⟩) -
    · obtain ⟨hl, hne'⟩ := h.next a _ hx rfl
      rw [show a + k + (n - k) = a + n by omega]
      exact ⟨hL _ hl, hne', fun d m u hd => h.entry a _ d m u hx rfl (hdummy d m u hd)⟩
    · refine ⟨⟨_, put_self, rfl⟩, fun heq => ?_, fun d m u hd heq => ?_⟩
      · obtain ⟨u, hu⟩ := h.last
        exact hnone _ (heq ▸ hu)
      · obtain ⟨z, hz, -⟩ := h.target d m u (hdummy d m u hd)
        exact hnone z (heq ▸ hz)
  · rintro b m u (⟨-, heq⟩ | ⟨-, heq⟩) <;> cases heq
  · exact fun b z hz _ hzb => hL _ (h.next b z hz hzb).1
  · exact fun d m u hd => hL u (h.target d m u hd)
  · intro b z hz hc
    refine hother b z hz ?_
    rintro rfl
    cases hx.symm.trans hz
    exact h.not_free hz hc rfl

end

/-- MemChunkAlloc supplies whole words, enough of them, apart from earlier regions and from `_first` and `_last`. -/
structure ValidChunk (P : Statics) (s : Memory) (asked : Int) (c : Int × Int) : Prop where
  words : c.1 % 4 = 0 ∧ c.2 % 4 = 0
  long : asked ≤ c.2
  regions : ∀ r ∈ s.regions, c.1 + c.2 ≤ r.1 ∨ r.1 + r.2 ≤ c.1
  statics : (c.1 + c.2 ≤ P.firstArray ∨ P.firstArray + 12 ≤ c.1) ∧ (c.1 + c.2 ≤ P.lastArray ∨ P.lastArray + 12 ≤ c.1)

theorem first_le (P : Statics) : P.firstArray ≤ P.first ∧ P.first ≤ P.firstArray + 3 ∧ P.first % 4 = 0 := by
  unfold Statics.first align
  omega

theorem last_le (P : Statics) : P.lastArray ≤ P.last ∧ P.last ≤ P.lastArray + 3 ∧ P.last % 4 = 0 := by
  unfold Statics.last align
  omega

variable {asked : Int} {c : Int × Int}

theorem Layout.apart_of_valid (h : Layout P s f) (hc : ValidChunk P s asked c) (hlen : 0 < c.2)
    (hx : f a = some x) :
    a + x.size ≤ c.1 ∨ c.1 + c.2 ≤ a := by
  have hpos := h.apart.pos a x hx
  by_cases hf : a = P.first
  · subst hf
    obtain ⟨u, hu⟩ := h.first
    cases hu.symm.trans hx
    have hle := first_le P
    have hs := hc.statics.1
    dsimp only at hpos ⊢
    omega
  by_cases hl : a = P.last
  · subst hl
    obtain ⟨u, hu⟩ := h.last
    cases hu.symm.trans hx
    have hle := last_le P
    have hs := hc.statics.2
    dsimp only at hpos ⊢
    omega
  by_contra hnot
  -- an address of both is in two regions
  obtain ⟨b, hab, hbx, hrb, hbr⟩ : ∃ b, a ≤ b ∧ b < a + x.size ∧ c.1 ≤ b ∧ b < c.1 + c.2 := by
    by_cases hle : a ≤ c.1
    · exact ⟨c.1, hle, by omega, Int.le_refl _, by omega⟩
    · exact ⟨a, Int.le_refl _, by omega, by omega, by omega⟩
  obtain ⟨r, hr, hin⟩ := h.inside a x hx hf hl b hab hbx
  have hdis := hc.regions r hr
  omega

theorem Layout.not_supplied (hc : ValidChunk P s asked c) (hle : c.1 ≤ a) (hlt : a < c.1 + c.2) : ¬ s.Supplied a := by
  rintro ⟨r, hr, hin⟩
  have hdis := hc.regions r hr
  omega

/-- A free block and a dummy block that links to `last` are put where nothing is, or only a block like that one. -/
theorem Layout.withRegion {len : Int} (h : Layout P s f) (hlen : 8 ≤ len) (hwords : a % 4 = 0 ∧ len % 4 = 0) (hstart : 0 < s.numAllocs)
    (hfar : ∀ b x, f b = some x → b = a ∧ x = ⟨8, .dummy P.last⟩ ∨ b + x.size ≤ a ∨ a + len + 8 ≤ b)
    (hin : ∀ e, a ≤ e → e < a + len + 8 → e < c.1 + c.2 ∧ (c.1 ≤ e ∨ s.Supplied e)) :
    Layout P { (s.setAdmin a len).setAdmin (a + len) (P.last - (a + len) + 3) with
      regions := c :: s.regions, largeRegions := c :: s.largeRegions, numLargeBytes := s.numLargeBytes + c.2 }
      (put (put f a ⟨len, .free⟩) (a + len) ⟨8, .dummy P.last⟩) := by
  have hne : a + len ≠ a := by omega
  have hnone : ∀ b x, f b = some x → b ≠ a + len := by
    intro b x hx
    have hpos := h.apart.pos b x hx
    obtain ⟨rfl, -⟩ | hfar := hfar b x hx <;> omega
  have hself : put (put f a ⟨len, .free⟩) (a + len) ⟨8, .dummy P.last⟩ a = some ⟨len, .free⟩ := by
    rw [put_of_ne hne.symm, put_self]
  have hother : ∀ b x, f b = some x → b ≠ a → put (put f a ⟨len, .free⟩) (a + len) ⟨8, .dummy P.last⟩ b = some x := by
    intro b x hb hba
    rw [put_of_ne (hnone b x hb), put_of_ne hba]
    exact hb
  have hL : ∀ b, Large f b → Large (put (put f a ⟨len, .free⟩) (a + len) ⟨8, .dummy P.last⟩) b := by
    rintro b ⟨z, hz, hzl⟩
    by_cases hba : b = a
    · subst hba
      exact ⟨_, hself, rfl⟩
    · exact ⟨z, hother b z hz hba, hzl⟩
  have hlarge : ∀ b, Large f b → a + len ≠ b := by
    rintro b ⟨z, hz, -⟩
    exact (hnone b z hz).symm
  have hlast : Large f P.last := by
    obtain ⟨u, hu⟩ := h.last
    exact ⟨_, hu, rfl⟩
  have hsupplied : ∀ e, a ≤ e → e < a + len + 8 → ∃ r ∈ c :: s.regions, r.1 ≤ e ∧ e < r.1 + r.2 := by
    intro e hle hlt
    obtain ⟨hend, hc | ⟨r, hr, hre⟩⟩ := hin e hle hlt
    · exact ⟨c, mem_cons_self, hc, hend⟩
    · exact ⟨r, mem_cons_of_mem _ hr, hre⟩
  refine h.rebuild (fun b y => b = a + len ∧ y = ⟨8, .dummy P.last⟩ ∨ b = a ∧ y = ⟨len, .free⟩)
    ⟨?_, ?_, ?_, ?_, ?_, ?_, ?_, ?_, ?_, ?_, ?_, ?_, ?_, hL _ h.current⟩ ?_ rfl rfl rfl rfl rfl
  · refine (h.apart.put (by dsimp only; omega) fun b y hy hb => ?_).put (by dsimp only; omega) fun b y hy hb => ?_
    · have hdis := (hfar b y hy).resolve_left fun heq => hb heq.1
      dsimp only
      omega
    · obtain ⟨rfl, rfl⟩ | ⟨hba, hy⟩ := put_eq_some hy
      · exact .inr (Int.le_refl _)
      · have hdis := (hfar b y hy).resolve_left fun heq => hba heq.1
        dsimp only
        omega
  · intro b z hz
    obtain hz | ⟨hbk, hz⟩ := put_eq_some hz
    · exact .inl (.inl hz)
    · obtain hz | ⟨hba, hz⟩ := put_eq_some hz
      · exact .inl (.inr hz)
      · exact .inr ⟨hz, (update_of_ne hbk _ _).trans (update_of_ne hba _ _)⟩
  · rintro b z (⟨-, rfl⟩ | ⟨-, rfl⟩) <;> rfl
  · rintro b z (⟨rfl, rfl⟩ | ⟨rfl, rfl⟩) <;> dsimp only <;> omega
  · rintro b z (⟨rfl, rfl⟩ | ⟨rfl, rfl⟩)
    · exact ⟨(last_le P).2.2, update_self _ _ _⟩
    · exact (update_of_ne hne.symm _ _).trans (update_self _ _ _)
  · rintro b z (⟨-, rfl⟩ | ⟨-, rfl⟩) hk <;> cases hk
  · rintro b z (⟨rfl, rfl⟩ | ⟨rfl, rfl⟩) e hle hlt <;> dsimp only at hlt
    · exact hsupplied e (by omega) hlt
    · exact hsupplied e hle (by omega)
  · exact fun h0 => absurd h0 (Nat.pos_iff_ne_zero.1 hstart)
  · rintro b z (⟨-, rfl⟩ | ⟨rfl, rfl⟩) hzb
    · cases hzb
    · refine ⟨⟨_, put_self, rfl⟩, hlarge _ hlast, fun d m u hd => ?_⟩
      obtain ⟨-, heq⟩ | ⟨-, hd⟩ := put_eq_some hd
      · cases heq
        exact hlarge _ hlast
      · obtain ⟨-, heq⟩ | ⟨-, hd⟩ := put_eq_some hd
        · cases heq
        · exact hlarge u (h.target d m u hd)
  · rintro b m u (⟨-, heq⟩ | ⟨-, heq⟩)
    · cases heq
      exact ⟨rfl, hL _ hlast, fun e y hy hyb => (h.next e y hy hyb).2⟩
    · cases heq
  · exact fun b z hz _ hzb => hL _ (h.next b z hz hzb).1
  · exact fun d m u hd => hL u (h.target d m u hd)
  · intro b z hz hc
    refine hother b z hz ?_
    rintro rfl
    -- the block that is overwritten is a dummy of eight bytes, which stays nowhere
    obtain ⟨-, rfl⟩ | hdis := hfar b z hz
    · obtain hl | hu | rfl | rfl := hc
      · cases hl
      · cases hu
      · obtain ⟨u, hu⟩ := h.first
        cases hz.symm.trans hu
      · obtain ⟨u, hu⟩ := h.last
        cases hz.symm.trans hu
    · have hpos := h.apart.pos b z hz
      omega
  · rintro e ⟨r, hr, hre⟩
    exact ⟨r, mem_cons_of_mem _ hr, hre⟩

/-- A new region for large objects: a free block, and a dummy block that links to `last`. -/
def putRegion (P : Statics) (s : Memory) (c : Int × Int) : Memory :=
  { (s.setAdmin c.1 (c.2 - 8)).setAdmin (c.1 + (c.2 - 8)) (P.last - (c.1 + (c.2 - 8)) + 3) with
    regions := c :: s.regions, largeRegions := c :: s.largeRegions, numLargeBytes := s.numLargeBytes + c.2 }

theorem Layout.putRegion (h : Layout P s f) (hc : ValidChunk P s asked c) (hlong : 16 ≤ asked)
    (hstart : 0 < s.numAllocs) :
    Layout P (s.putRegion P c) (put (put f c.1 ⟨c.2 - 8, .free⟩) (c.1 + (c.2 - 8)) ⟨8, .dummy P.last⟩) := by
  have hl := hc.long
  have hwords := hc.words
  refine h.withRegion (by omega) (by omega) hstart (fun b x hx => .inr ?_) fun e hle hlt => ⟨by omega, .inl hle⟩
  have hdis := h.apart_of_valid hc (by omega) hx
  omega

/-- A region that begins where the last one ends: the dummy block between them becomes a free one. -/
def extendRegion (P : Statics) (s : Memory) (a : Int) (c : Int × Int) : Memory :=
  { (s.setAdmin a c.2).setAdmin (a + c.2) (P.last - (a + c.2) + 3) with
    regions := c :: s.regions, largeRegions := c :: s.largeRegions, numLargeBytes := s.numLargeBytes + c.2 }

theorem Layout.extendRegion (h : Layout P s f) (hc : ValidChunk P s asked c) (hlong : 16 ≤ asked)
    (hstart : 0 < s.numAllocs) (hx : f a = some ⟨8, .dummy P.last⟩) (ha : c.1 = a + 8) :
    Layout P (s.extendRegion P a c) (put (put f a ⟨c.2, .free⟩) (a + c.2) ⟨8, .dummy P.last⟩) := by
  have hl := hc.long
  have hwords := hc.words
  refine h.withRegion (by omega) (by omega) hstart (fun b x hb => ?_) fun e hle hlt => ⟨by omega, ?_⟩
  · by_cases hba : b = a
    · subst hba
      exact .inl ⟨rfl, Option.some.inj (hb.symm.trans hx)⟩
    · have hdis := h.apart_of_valid hc (by omega) hb
      have hdis' := h.apart.apart a b _ x hx hb (Ne.symm hba)
      have hpos := h.apart.pos b x hb
      dsimp only at hdis'
      omega
  · by_cases hd : e < a + 8
    · refine .inr (h.inside a _ hx ?_ ?_ e hle hd)
      · rintro rfl
        obtain ⟨u, hu⟩ := h.first
        cases hu.symm.trans hx
      · rintro rfl
        obtain ⟨u, hu⟩ := h.last
        cases hu.symm.trans hx
    · exact .inl (by omega)

end Memory
end SpriteKernel.Mem
