import SpriteKernel.Ofs.Held

/- What the lists of fragments know of the blocks that are partly in use. -/
namespace SpriteKernel.Ofs

open Function List

section table

theorem upperMask_eq : ∀ b, getUpperFragMask b =
    (b.getMsbD 0).toNat * 8 + (b.getMsbD 1).toNat * 4 + (b.getMsbD 2).toNat * 2 + (b.getMsbD 3).toNat := by decide +kernel

theorem lowerMask_eq : ∀ b, getLowerFragMask b =
    (b.getMsbD 4).toNat * 8 + (b.getMsbD 5).toNat * 4 + (b.getMsbD 6).toNat * 2 + (b.getMsbD 7).toNat := by decide +kernel

/-- The block has two free fragments, each on its own. -/
def TwoSingles (mask : Nat) : Prop := mask ∈ [5, 6, 10]

instance (mask : Nat) : Decidable (TwoSingles mask) := inferInstanceAs (Decidable (mask ∈ [5, 6, 10]))

theorem upper_twoSingles : ∀ b, ∀ j < 3, ∀ k < 3, k ≤ j ∧ fragOffsets (getUpperFragMask b) j ≠ -1 ∧
    fragOffsets (getUpperFragMask (b ||| fragBits (fragOffsets (getUpperFragMask b) j).toNat (k + 1))) j ≠ -1 →
      j = 0 ∧ TwoSingles (getUpperFragMask b) := by decide +kernel

theorem lower_twoSingles : ∀ b, ∀ j < 3, ∀ k < 3, k ≤ j ∧ fragOffsets (getLowerFragMask b) j ≠ -1 ∧
    fragOffsets (getLowerFragMask (b ||| fragBits ((fragOffsets (getLowerFragMask b) j).toNat + 4) (k + 1))) j ≠ -1 →
      j = 0 ∧ TwoSingles (getLowerFragMask b) := by decide +kernel

end table

namespace Domain
variable {g : Header} {start s s' : Domain} {p : Frag} {held : List Frag} {n allocGap numFrags : Nat} {found : Found}

/-- Which fragments of the block are in use, as the table has it. -/
def nibble (g : Header) (s : Domain) (n : Nat) : Nat := g.fragMask n (s.bitmap (g.getBitmapPtr n))

/-- The table has a run of `k + 1` fragments for the block. -/
def Room (g : Header) (s : Domain) (n k : Nat) : Prop := fragOffsets (s.nibble g n) k ≠ -1

instance (n k : Nat) : Decidable (s.Room g n k) := instDecidableNot

/-- A block is on the lists of all sizes that it has runs of. -/
def Hinted (g : Header) (s : Domain) : Prop := ∀ n < g.total, ∀ k < 3, s.Room g n k → n ∈ s.fragLists k

theorem nibble_congr (h : ∀ f < 4, s'.bit g n f = s.bit g n f) : s'.nibble g n = s.nibble g n := by
  have h0 := h 0 (by decide)
  have h1 := h 1 (by decide)
  have h2 := h 2 (by decide)
  have h3 := h 3 (by decide)
  simp only [bit, Header.byteOffset] at h0 h1 h2 h3
  simp only [nibble, Header.fragMask]
  split
  · rename_i hlow
    simp only [if_pos hlow] at h0 h1 h2 h3
    rw [lowerMask_eq, lowerMask_eq, h0, h1, h2, h3]
  · rename_i hup
    simp only [if_neg hup] at h0 h1 h2 h3
    rw [upperMask_eq, upperMask_eq, h0, h1, h2, h3]

theorem Room.partlyUsed {k : Nat} (hk : k < 3) (h : s.Room g n k) : ¬ s.BlockFree g n := (fragOffsets_room hk h).2.2

theorem noRoom_full {k : Nat} (h : ∀ f < 4, s.bit g n f = true) (hk : k < 3) : ¬ s.Room g n k := by
  intro hroom
  obtain ⟨hle, hclear, -⟩ := fragOffsets_room hk hroom
  have hbit := hclear _ (by omega) (Nat.le_refl _) (by omega)
  rw [h _ (by omega)] at hbit
  nomatch hbit

/-- Where one block has changed, that one is to be on its lists, and the others are to stay on theirs. -/
theorem Hinted.change (h : Hinted g s) (hoff : Off g n s s')
    (hkeep : ∀ m, m ≠ n → ∀ k < 3, s.Room g m k → m ∈ s.fragLists k → m ∈ s'.fragLists k)
    (hn : n < g.total → ∀ k < 3, s'.Room g n k → n ∈ s'.fragLists k) : Hinted g s' := by
  intro m hm k hk hroom
  by_cases hne : m = n
  · subst hne
    exact hn hm k hk hroom
  · rw [Room, nibble_congr fun f hf => hoff m hne f hf] at hroom
    exact hkeep m hne k hk hroom (h m hm k hk hroom)

theorem mem_putOnLists {m k saved now : Nat} (h : m ∈ s.fragLists k) : m ∈ (s.putOnLists n saved now).fragLists k := by
  rw [putOnLists]
  dsimp only
  split
  · exact mem_append_left _ h
  · exact h

theorem put_on_lists {k saved now : Nat} (hk : k < 3) (hnow : fragOffsets now k ≠ -1)
    (h : fragOffsets saved k ≠ -1 → n ∈ s.fragLists k) : n ∈ (s.putOnLists n saved now).fragLists k := by
  by_cases hsaved : fragOffsets saved k = -1
  · rw [putOnLists]
    dsimp only
    rw [if_pos ⟨hk, hsaved, hnow⟩]
    exact mem_append_right _ mem_cons_self
  · exact mem_putOnLists (h hsaved)

/-! `OfsFragFind` -/

theorem popFrag_cons (i b : Nat) (list : List Nat) : s.popFrag g i (b :: list) =
    if s.Room g b i then (some (b, (fragOffsets (s.nibble g b) i).toNat), list) else s.popFrag g i list := rfl

/-- What is in front of a block with room, and behind it. -/
theorem popFrag_split (i : Nat) (list : List Nat) :
    s.popFrag g i list = (none, []) ∧ (∀ b ∈ list, ¬ s.Room g b i) ∨
      ∃ pre n post, list = pre ++ n :: post ∧ (∀ b ∈ pre, ¬ s.Room g b i) ∧ s.Room g n i ∧
        s.popFrag g i list = (some (n, (fragOffsets (s.nibble g n) i).toNat), post) := by
  induction list with
  | nil => exact .inl ⟨rfl, fun _ hb => nomatch hb⟩
  | cons b list ih =>
    rw [popFrag_cons]
    by_cases hroom : s.Room g b i
    · rw [if_pos hroom]
      exact .inr ⟨[], b, list, rfl, fun _ hb => (nomatch hb), hroom, rfl⟩
    · rw [if_neg hroom]
      rcases ih with ⟨heq, hall⟩ | ⟨pre, n, post, rfl, hpre, hn, heq⟩
      · exact .inl ⟨heq, forall_mem_cons.2 ⟨hroom, hall⟩⟩
      · exact .inr ⟨b :: pre, n, post, rfl, forall_mem_cons.2 ⟨hroom, hpre⟩, hn, heq⟩

/-- What the lists have lost: nothing that has room, but for a block that one of them has given. -/
theorem tryFragLists_lists {c i : Nat} (hcount : i + c ≤ 3) :
    (s.tryFragLists g c i).1 = none ∧ (∀ j, i ≤ j → j < i + c → ∀ b ∈ s.fragLists j, ¬ s.Room g b j) ∧
        (∀ k, ∀ b ∈ s.fragLists k, s.Room g b k → b ∈ (s.tryFragLists g c i).2.fragLists k) ∨
      ∃ j n pre post, i ≤ j ∧ j < 3 ∧ s.fragLists j = pre ++ n :: post ∧ (∀ b ∈ pre, ¬ s.Room g b j) ∧ s.Room g n j ∧
        (s.tryFragLists g c i).1 = some (n, (fragOffsets (s.nibble g n) j).toNat) ∧
          ∀ k, ∀ b ∈ s.fragLists k, s.Room g b k → (k = j → b = n → n ∈ post) → b ∈ (s.tryFragLists g c i).2.fragLists k := by
  induction c generalizing s i with
  | zero => exact .inl ⟨rfl, fun j hlo hhi => absurd hhi (by omega), fun _ _ hb _ => hb⟩
  | succ c ih =>
    rw [tryFragLists]
    rcases popFrag_split (g := g) (s := s) i (s.fragLists i) with ⟨heq, hall⟩ | ⟨pre, n, post, hlist, hpre, hn, heq⟩
    · rw [heq]
      have hkept : ∀ k, ∀ b ∈ s.fragLists k, s.Room g b k → b ∈ update s.fragLists i [] k := by
        intro k b hb hroom
        by_cases hk : k = i
        · subst hk
          exact absurd hroom (hall b hb)
        · rwa [update_of_ne hk]
      rcases @ih { s with fragLists := update s.fragLists i [] } (i + 1) (by omega) with
        ⟨hnone, hrest, hlists⟩ | ⟨j, n, pre, post, hle, hj, hlist, hpre, hn, hsome, hlists⟩
      · refine .inl ⟨hnone, fun j hlo hhi b hb => ?_, fun k b hb hroom => hlists k b (hkept k b hb hroom) hroom⟩
        by_cases hji : j = i
        · subst hji
          exact hall b hb
        · exact hrest j (by omega) (by omega) b (by show b ∈ update s.fragLists i [] j; rwa [update_of_ne hji])
      · have hlist' : update s.fragLists i [] j = pre ++ n :: post := hlist
        rw [update_of_ne (by omega)] at hlist'
        exact .inr ⟨j, n, pre, post, by omega, hj, hlist', hpre, hn, hsome,
          fun k b hb hroom hnot => hlists k b (hkept k b hb hroom) hroom hnot⟩
    · rw [heq]
      refine .inr ⟨i, n, pre, post, Nat.le_refl i, by omega, hlist, hpre, hn, rfl, fun k b hb hroom hnot => ?_⟩
      show b ∈ update s.fragLists i post k
      by_cases hk : k = i
      · subst hk
        rw [update_self]
        rw [hlist] at hb
        rcases mem_append.1 hb with hb | hb
        · exact absurd hroom (hpre b hb)
        · rcases mem_cons.1 hb with rfl | hb
          · exact hnot rfl rfl
          · exact hb
      · rwa [update_of_ne hk]

/-- A block whose bits are set is to be on the lists of the runs that it had and still has. -/
theorem takeFrag_hinted {t : Domain} {o k : Nat} {mask : Byte} (h : Hinted g s)
    (heq : t.takeFrag g n (g.getBitmapPtr n) o k mask = (found, s')) (hnot : found ≠ .panic)
    (hoff : ∀ n' off, found = .block n' off → Off g n' s s') (hbitmap : t.bitmap = s.bitmap)
    (hkeep : ∀ m, m ≠ n → ∀ i < 3, s.Room g m i → m ∈ s.fragLists i → m ∈ t.fragLists i) :
    found = .block n o ∧ ((n < g.total → ∀ i < 3, s.Room g n i →
      fragOffsets (g.fragMask n (s.bitmap (g.getBitmapPtr n) ||| mask)) i ≠ -1 → n ∈ t.fragLists i) → Hinted g s') := by
  rw [takeFrag] at heq
  split at heq
  · exact absurd (congrArg Prod.fst heq).symm hnot
  · split at heq
    · exact absurd (congrArg Prod.fst heq).symm hnot
    · obtain ⟨rfl, rfl⟩ := Prod.mk.inj heq
      refine ⟨rfl, fun hn => h.change (hoff n o rfl) (fun m hm i hi hroom hmem => mem_putOnLists (hkeep m hm i hi hroom hmem))
        fun hlt i hi hroom => ?_⟩
      rw [Room, nibble] at hroom
      dsimp only [putOnLists] at hroom
      rw [setByte_same] at hroom
      refine put_on_lists hi hroom fun hsaved => hn hlt i hi ?_ ?_
      · rw [Room, nibble, ← hbitmap]
        exact hsaved
      · rwa [← hbitmap]

theorem twoSingles_of_room {j k : Nat} (hj : j < 3) (hk : k ≤ j) (hroom : s.Room g n j)
    (hnow : fragOffsets (g.fragMask n (s.bitmap (g.getBitmapPtr n) |||
      fragBits (g.byteOffset n (fragOffsets (s.nibble g n) j).toNat) (k + 1))) j ≠ -1) : j = 0 ∧ TwoSingles (s.nibble g n) := by
  rw [Room] at hroom
  simp only [nibble, Header.fragMask, Header.byteOffset] at hroom hnow ⊢
  split at hroom
  · rename_i hlow
    simp only [if_pos hlow] at hnow ⊢
    exact lower_twoSingles _ j hj k (by omega) ⟨hk, hroom, hnow⟩
  · rename_i hup
    simp only [if_neg hup] at hnow ⊢
    exact upper_twoSingles _ j hj k (by omega) ⟨hk, hroom, hnow⟩

/-- The first block with room of the first list that has any has two free fragments, each alone, only if listed
    again. -/
def Spared (g : Header) (s : Domain) : Prop :=
  ∀ pre n post, s.fragLists 0 = pre ++ n :: post → (∀ b ∈ pre, ¬ s.Room g b 0) → TwoSingles (s.nibble g n) → n ∈ post

/-- A block that is free is broken only where no block has a run that is long enough. -/
def BreaksNone (g : Header) (s : Domain) (numFrags : Nat) (r : Found × Domain) : Prop :=
  ∀ n off s', r = (.block n off, s') → s.BlockFree g n → ∀ m < g.total, ∀ k < 3, numFrags ≤ k + 1 → ¬ s.Room g m k

variable {hashSeed : Int}

theorem newFrag_hinted (hc : Counted g s) (h : Hinted g s) (hgap : allocGap ≤ 1)
    (hpos : 0 < numFrags) (hsize : numFrags ≤ 3) (heq : s.newFrag g allocGap hashSeed numFrags = (found, s'))
    (hnot : found ≠ .panic) (hoff : ∀ n off, found = .block n off → Off g n s s') :
    ((numFrags = 1 → Spared g s) → Hinted g s') ∧ BreaksNone g s numFrags (found, s') := by
  have hlists := tryFragLists_lists (g := g) (s := s) (c := 3 - (numFrags - 1)) (i := numFrags - 1) (by omega)
  have hshort := (tryFragLists_cases hc.hints (s := s) (c := 3 - (numFrags - 1)) (i := numFrags - 1) (by omega)).1
  revert heq hlists hshort
  rw [newFrag]
  generalize s.tryFragLists g (3 - (numFrags - 1)) (numFrags - 1) = r
  obtain ⟨tried, s₁⟩ := r
  intro heq hlists hshort
  have hkept : Kept g s s₁ := hshort.hints hc
  rcases hlists with ⟨hnone, hall, hkeep⟩ | ⟨j, n, pre, post, hle, hj, hlist, hpre, hn, hsome, hkeep⟩
  · have htried : tried = none := hnone
    subst htried
    have hbreaks : BreaksNone g s numFrags (found, s') := fun n off s'' _ _ m hm k hk hle hroom =>
      hall k (by omega) (by omega) m (h m hm k hk hroom) hroom
    refine ⟨fun _ => ?_, hbreaks⟩
    rcases findBlockInt_cases hkept.counted (fun n hn => by cases (show none = some n from hn)) (fits_none hgap) false with ⟨hnil, -⟩ | ⟨n, hn, hfree, hblock⟩
    · dsimp only at heq
      rw [hnil] at heq
      obtain ⟨-, rfl⟩ := Prod.mk.inj heq
      intro m hm k hk hroom
      rw [Room, nibble, hkept.bitmap] at hroom
      exact hkeep k m (h m hm k hk hroom) hroom
    · dsimp only at heq
      rw [hblock] at heq
      refine (takeFrag_hinted h heq hnot hoff hkept.bitmap fun m _ i _ hroom hmem => hkeep i m hmem hroom).2 ?_
      exact fun hlt i hi hroom _ => hkeep i n (h n hlt i hi hroom) hroom
  · have htried : tried = some (n, (fragOffsets (s.nibble g n) j).toNat) := hsome
    subst htried
    obtain ⟨hfound, htaken⟩ := takeFrag_hinted h heq hnot hoff hkept.bitmap
      (fun m hm i _ hroom hmem => hkeep i m hmem hroom fun _ hmn => absurd hmn hm)
    refine ⟨fun hspared => htaken fun hlt i hi hroom hnow => hkeep i n (h n hlt i hi hroom) hroom fun hij _ => ?_,
      fun n' off s'' hr hfree => ?_⟩
    · subst hij
      obtain ⟨rfl, htwo⟩ := twoSingles_of_room hj hle hroom (by rwa [Nat.sub_add_cancel hpos])
      exact hspared (by omega) pre n post hlist hpre htwo
    · subst hfound
      cases hr
      exact absurd hfree (hn.partlyUsed hj)

theorem ofsFragFind_hinted (hc : Counted g s) (h : Hinted g s) (hashSeed : Int) (hgap : allocGap ≤ 1)
    (hpos : 0 < numFrags) (hsize : numFrags ≤ 3) {last : Option Frag}
    (hlast : ∀ p, last = some p → p.Fits ∧ p.block < g.total ∧ p.size < numFrags ∧ ¬ s.BlockFree g p.block) :
    ((numFrags = 1 → s.minKFree ≤ s.numFreeKbytes - 1 → Spared g s) → Hinted g (s.ofsFragFind g allocGap hashSeed numFrags last).2) ∧
      BreaksNone g s numFrags (s.ofsFragFind g allocGap hashSeed numFrags last) := by
  obtain ⟨found, s', heq, hnot, hoff⟩ : ∃ found s', s.ofsFragFind g allocGap hashSeed numFrags last = (found, s') ∧
      found ≠ .panic ∧ ∀ n off, found = .block n off → Off g n s s' := by
    rcases ofsFragFind_cases hc hashSeed hgap hpos hsize hlast with
      ⟨s', heq, -⟩ | ⟨p, s', -, heq, htook⟩ | ⟨n, s', off, heq, htook⟩
    · exact ⟨_, s', heq, nofun, nofun⟩
    · exact ⟨_, s', heq, nofun, fun _ _ hn => (Found.block.inj hn).1 ▸ htook.sets.off⟩
    · exact ⟨_, s', heq, nofun, fun _ _ hn => (Found.block.inj hn).1 ▸ htook.sets.off⟩
  rw [heq]
  unfold ofsFragFind at heq
  dsimp only at heq
  split_ifs at heq with hfloor
  · cases heq
    exact ⟨fun _ => h, fun _ _ _ hr => nomatch hr⟩
  · cases last with
    | none =>
      obtain ⟨hhinted, hbreaks⟩ := newFrag_hinted hc h hgap hpos hsize heq hnot hoff
      exact ⟨fun hspared => hhinted fun hone => hspared hone (by dsimp only at hfloor; omega), hbreaks⟩
    | some p =>
      obtain ⟨hfits, hn, hlt, hused⟩ := hlast p rfl
      have hpart := hfits.1
      dsimp only at heq
      split at heq
      · obtain ⟨rfl, htaken⟩ := takeFrag_hinted h heq hnot hoff rfl fun _ _ _ _ _ hmem => hmem
        refine ⟨fun _ => htaken fun hlt i hi hroom _ => h _ hlt i hi hroom, fun n off s'' hr hfree => ?_⟩
        cases hr
        exact absurd hfree hused
      · obtain ⟨hhinted, hbreaks⟩ := newFrag_hinted hc h hgap hpos hsize heq hnot hoff
        exact ⟨fun _ => hhinted fun hone => absurd hlt (by omega), hbreaks⟩

/-! The other routines -/

theorem ofsBlockFind_hinted (hc : Counted g s) (h : Hinted g s) {allocGap : Nat} {near : Option Nat}
    (hnear : ∀ n, near = some n → n < g.total) (hfits : FindFits g s allocGap hashSeed near) :
    Hinted g (s.ofsBlockFind g allocGap hashSeed near true).2 := by
  rw [ofsBlockFind]
  split
  · exact h
  · rcases findBlockInt_cases hc hnear hfits true with ⟨heq, -⟩ | ⟨n, -, -, heq⟩
    · rwa [heq]
    · rw [heq]
      refine h.change (n := n) (sets_or (Frag.full_fits n) rfl).off (fun _ _ _ _ _ hmem => hmem) fun _ k hk hroom =>
        absurd hroom (noRoom_full (fun f hf => ?_) hk)
      have hbit := (sets_or (g := g) (s := s) (Frag.full_fits n) rfl).bits n f hf
      rwa [decide_eq_true (Frag.full_has hf), Bool.or_true] at hbit

theorem ofsBlockFree_hinted (hc : Counted g s) (h : Hinted g s) (hn : n < g.total) (hset : ∀ f < 4, s.bit g n f = true) :
    Hinted g (s.ofsBlockFree g n) := by
  have hgave := ofsBlockFree_gave hc hn hset
  have hlists : (s.ofsBlockFree g n).fragLists = s.fragLists := by
    rw [ofsBlockFree]
    generalize (if g.isLower n then 0xf0#8 else 0x0f#8) = mask
    split
    · rfl
    · rfl
  refine h.change hgave.clears.off (fun m _ k _ _ hmem => hlists ▸ hmem) fun _ k hk hroom => absurd (fun f hf => ?_) (hroom.partlyUsed hk)
  have hbit := hgave.clears.bits n f hf
  rwa [decide_eq_true (Frag.full_has hf), Bool.not_true, Bool.and_false] at hbit

theorem ofsFragFree_hinted (hc : Counted g s) (h : Hinted g s) (hfits : p.Fits) (hn : p.block < g.total)
    (hset : ∀ f < 4, p.Has p.block f → s.bit g p.block f = true) : Hinted g (s.ofsFragFree g p) := by
  have hgave := ofsFragFree_gave hc hfits hn hset
  have hall := (and_bits_self hfits).2 hset
  have hoff := hgave.clears.off
  revert hoff
  have hmask : fragBits (g.byteOffset p.block p.offset) p.size = p.bits g := rfl
  simp only [ofsFragFree, hmask]
  rw [if_neg (not_not.2 hall)]
  split
  · intro hoff
    refine h.change hoff (fun m _ k _ _ hmem => hmem) fun _ k hk hroom => absurd ?_ (hroom.partlyUsed hk)
    rw [← fragMask_zero]
    rwa [setByte_same]
  · intro hoff
    refine h.change hoff (fun m _ k _ _ hmem => mem_putOnLists hmem) fun hlt k hk hroom => ?_
    rw [Room, nibble] at hroom
    dsimp only [putOnLists] at hroom
    rw [setByte_same] at hroom
    exact put_on_lists hk hroom fun hsaved => h _ hlt k hk hsaved

/-! `OfsBlockAllocInit` -/

section init
variable {i j k c m : Nat}

/-- What a loop does in one turn, and undoes in none, is done at its end. -/
theorem foldl_establishes {α β : Type} {I P : β → Prop} (f : β → α → β) (hI : ∀ b x, I b → I (f b x))
    (hP : ∀ b x, P b → P (f b x)) {l : List α} {a : α} (ha : a ∈ l) (hset : ∀ b, I b → P (f b a)) {b : β} (hb : I b) :
    P (l.foldl f b) := by
  induction l generalizing b with
  | nil => nomatch ha
  | cons x l ih =>
    rcases mem_cons.1 ha with rfl | ha
    · exact foldlRecOn l f (hset b hb) fun b hb x _ => hP b x hb
    · exact ih ha (hI b x hb)

theorem fragOffsets_free : ∀ k, fragOffsets 0 k = -1
  | 0 | 1 | 2 | _ + 3 => rfl

theorem initBlock_lists (b : Nat) : (s.initBlock i b m).fragLists = (s.putOnLists b 0 m).fragLists := by
  rw [initBlock, putOnLists]
  split
  · rename_i hm
    simp [hm, fragOffsets_free]
  · simp [fragOffsets_free]

theorem mem_initBlock {b : Nat} (h : n ∈ s.fragLists k) : n ∈ (s.initBlock i b m).fragLists k := by
  rw [initBlock_lists]
  exact mem_putOnLists h

theorem initBlock_mem (hk : k < 3) (h : fragOffsets m k ≠ -1) : n ∈ (s.initBlock i n m).fragLists k := by
  rw [initBlock_lists]
  exact put_on_lists hk h fun hused => absurd (fragOffsets_free k) hused

theorem mem_initByte (h : n ∈ s.fragLists k) : n ∈ (s.initByte g i j).fragLists k := by
  rw [initByte]
  split
  · exact mem_initBlock h
  · exact mem_initBlock (mem_initBlock h)

theorem initByte_mem (hk : k < 3) (h : s.Room g n k) :
    n ∈ (s.initByte g (n / g.blocksPerCylinder) (n % g.blocksPerCylinder / 2)).fragLists k := by
  have hlt := Nat.mod_lt n g.blocks_pos
  have hn : n = n / g.blocksPerCylinder * g.blocksPerCylinder + n % g.blocksPerCylinder := by
    rw [Nat.mul_comm]
    exact (Nat.div_add_mod n _).symm
  rw [Room, nibble, Header.fragMask] at h
  rw [initByte]
  by_cases hlow : g.isLower n
  · rw [if_pos hlow] at h
    rw [Header.isLower] at hlow
    rw [if_neg (by rw [Header.bytesPerCylinder]; omega)]
    have hblock : n / g.blocksPerCylinder * g.blocksPerCylinder + n % g.blocksPerCylinder / 2 * 2 + 1 = n := by omega
    rw [hblock]
    exact initBlock_mem hk h
  · rw [if_neg hlow] at h
    rw [Header.isLower] at hlow
    have hblock : n / g.blocksPerCylinder * g.blocksPerCylinder + n % g.blocksPerCylinder / 2 * 2 = n := by omega
    have hmem := initBlock_mem (n := n) (s := s) (i := n / g.blocksPerCylinder) hk h
    rw [hblock]
    split
    · exact hmem
    · exact mem_initBlock hmem

theorem initByte_bitmap : (s.initByte g i j).bitmap = s.bitmap := by
  simp only [initByte, initBlock]
  split_ifs <;> rfl

theorem mem_initCylinder (h : n ∈ s.fragLists k) : n ∈ (s.initCylinder g i).fragLists k :=
  foldlRecOn _ _ (motive := fun s : Domain => n ∈ s.fragLists k) h fun _ hb _ _ => mem_initByte hb

theorem initCylinder_bitmap : (s.initCylinder g i).bitmap = s.bitmap :=
  foldlRecOn _ _ (motive := fun t : Domain => t.bitmap = s.bitmap) rfl fun _ hb _ _ => initByte_bitmap.trans hb

theorem room_congr (h : s'.bitmap = s.bitmap) : s'.Room g n k ↔ s.Room g n k := by rw [Room, Room, nibble, nibble, h]

theorem initCylinder_mem (hk : k < 3) (h : s.Room g n k) : n ∈ (s.initCylinder g (n / g.blocksPerCylinder)).fragLists k :=
  foldl_establishes (fun t j => t.initByte g (n / g.blocksPerCylinder) j) (I := fun t : Domain => t.bitmap = s.bitmap) (P := fun t : Domain => n ∈ t.fragLists k) (fun _ _ hb => initByte_bitmap.trans hb)
    (fun _ _ hb => mem_initByte hb) (mem_range.2 (g.offset_lt n)) (fun _ hb => initByte_mem hk ((room_congr hb).2 h)) rfl

theorem ofsBlockAllocInit_hinted (bitmap : Int → Byte) (numFreeKbytes : Int) : Hinted g (ofsBlockAllocInit g bitmap numFreeKbytes) :=
  fun n hn _ hk hroom => foldl_establishes (fun t i => t.initCylinder g i) (I := fun t : Domain => t.bitmap = bitmap) (P := fun t : Domain => n ∈ t.fragLists _)
    (fun _ _ hb => initCylinder_bitmap.trans hb) (fun _ _ hb => mem_initCylinder hb) (mem_range.2 (g.cylinder_lt hn))
    (fun _ hb => initCylinder_mem hk ((room_congr (hb.trans (ofsBlockAllocInit_counted bitmap numFreeKbytes).2.symm)).2 hroom)) rfl

end init

/-! Runs -/

/-- A call for one fragment, where there is space for it, finds the lists spared. -/
def Use.Spares (g : Header) (s : Domain) : Use → Prop
  | fragFind _ _ numFrags _ => numFrags = 1 → s.minKFree ≤ s.numFreeKbytes - 1 → Spared g s
  | _ => True

theorem Sound.last (h : Sound g start s held) {last : Option Frag}
    (hlegal : (Use.fragFind allocGap hashSeed numFrags last).Legal g held) :
    ∀ p, last = some p → p.Fits ∧ p.block < g.total ∧ p.size < numFrags ∧ ¬ s.BlockFree g p.block := by
  intro p hp
  obtain ⟨hmem, hlt⟩ := hlegal.2.2.2 p hp
  obtain ⟨hfits, hn⟩ := h.holds.fits p hmem
  exact ⟨hfits, hn, hlt, not_free_of_set hfits (h.first_used hmem)⟩

theorem Hinted.step (h : Hinted g s) (hsound : Sound g start s held) {u : Use} (hlegal : u.Legal g held) (hfinds : u.Finds g s)
    (hspares : u.Spares g s) : Hinted g (u.step g s held).1 := by
  have hc := hsound.counted
  cases u with
  | blockFind allocGap hashSeed near =>
    have hnext := ofsBlockFind_hinted hc h hlegal.2 (hfinds.fits hc hlegal.1 hlegal.2)
    rw [Use.step]
    generalize s.ofsBlockFind g allocGap hashSeed near true = r at hnext ⊢
    obtain ⟨found, s'⟩ := r
    cases found <;> exact hnext
  | fragFind allocGap hashSeed numFrags last =>
    obtain ⟨hgap, hpos, hsize, -⟩ := id hlegal
    have hnext := (ofsFragFind_hinted hc h hashSeed hgap hpos hsize (hsound.last hlegal)).1 hspares
    rw [Use.step]
    generalize s.ofsFragFind g allocGap hashSeed numFrags last = r at hnext ⊢
    obtain ⟨found, s'⟩ := r
    cases found with
    | block n off =>
      cases last with
      | none => exact hnext
      | some p =>
        dsimp only
        split
        · exact hnext
        · exact hnext
    | _ => exact hnext
  | blockFree n => exact ofsBlockFree_hinted hc h (hsound.holds.fits _ hlegal).2 fun f hf => hsound.holds.set hlegal hf (Frag.full_has hf)
  | fragFree p keep =>
    obtain ⟨hmem, hkeep⟩ := hlegal
    obtain ⟨hfits, hn⟩ := hsound.holds.fits p hmem
    refine ofsFragFree_hinted hc h (Frag.tail_fits hfits hkeep) hn fun f hf hhas => hsound.first_used hmem f hf ?_
    exact (p.has_iff (Nat.le_of_lt hkeep) _ _).2 (.inr hhas)

/-- What is reached when no call takes a block off a list that it should stay on. -/
inductive Sparing (g : Header) (start : Domain) : Domain → List Frag → Prop
  | start : Sparing g start start []
  | step {s : Domain} {held : List Frag} {u : Use} : Sparing g start s held → u.Legal g held → u.Finds g s → u.Spares g s →
      Sparing g start (u.step g s held).1 (u.step g s held).2

theorem Sparing.owned (h : Sparing g start s held) : Owned g start s held := by
  induction h with
  | start => exact .start
  | step _ hlegal hfinds _ ih => exact .step ih hlegal hfinds

theorem Sparing.hinted (h : Sparing g start s held) (hc : Counted g start) (hstart : Hinted g start) : Hinted g s := by
  induction h with
  | start => exact hstart
  | step hrun hlegal hfinds hspares ih => exact ih.step (hrun.owned.sound hc) hlegal hfinds hspares

/-- **The lists are complete** in these runs, so that a free block is broken only where no other one has room. -/
theorem hints_complete_of_run {bitmap : Int → Byte} {numFreeKbytes : Int}
    (h : Sparing g (ofsBlockAllocInit g bitmap numFreeKbytes) s held) :
    Hinted g s ∧ ∀ (allocGap numFrags : Nat) (hashSeed : Int) (last : Option Frag),
      (Use.fragFind allocGap hashSeed numFrags last).Legal g held →
        BreaksNone g s numFrags (s.ofsFragFind g allocGap hashSeed numFrags last) := by
  have hc := (ofsBlockAllocInit_counted bitmap numFreeKbytes (g := g)).1
  have hhinted := h.hinted hc (ofsBlockAllocInit_hinted bitmap numFreeKbytes)
  have hsound := h.owned.sound hc
  exact ⟨hhinted, fun _ _ hashSeed _ hlegal =>
    (ofsFragFind_hinted hsound.counted hhinted hashSeed hlegal.1 hlegal.2.1 hlegal.2.2.1 (hsound.last hlegal)).2⟩

/-- A file that takes one fragment. -/
def singleUse : Use := .fragFind 0 0 1 none
def singleHeld : Domain × List Frag := singleUse.step smallDisk emptyDisk []

theorem hints_complete_of_run_single :
    Sparing smallDisk emptyDisk singleHeld.1 singleHeld.2 ∧ Hinted smallDisk singleHeld.1 ∧
      BreaksNone smallDisk singleHeld.1 2 (singleHeld.1.ofsFragFind smallDisk 0 0 2 none) := by
  have hspares : singleUse.Spares smallDisk emptyDisk := by
    intro _ _ pre n post heq
    have hnil : ([] : List Nat) = pre ++ n :: post := heq
    simp at hnil
  have hrun : Sparing smallDisk emptyDisk singleHeld.1 singleHeld.2 :=
    .step .start ⟨by decide, by decide, by decide, fun _ h => nomatch h⟩ trivial hspares
  obtain ⟨hhinted, hbreaks⟩ := hints_complete_of_run hrun
  exact ⟨hrun, hhinted, hbreaks 0 2 0 none ⟨by decide, by decide, by decide, fun _ h => nomatch h⟩⟩

/-- Three fragments of a block are taken, the second is freed, and is taken again. -/
def threeSingles : Domain × List Frag :=
  let two := singleUse.step smallDisk singleHeld.1 singleHeld.2
  singleUse.step smallDisk two.1 two.2
def secondFreed : Domain × List Frag := (Use.fragFree ⟨3, 1, 1⟩ 0).step smallDisk threeSingles.1 threeSingles.2
def secondTaken : Domain × List Frag := singleUse.step smallDisk secondFreed.1 secondFreed.2

/-- The last fragment of the block is then free, and a free block is broken for the next one. -/
theorem hint_lost : Owned smallDisk emptyDisk secondTaken.1 secondTaken.2 ∧ ¬ Hinted smallDisk secondTaken.1 ∧
    ¬ BreaksNone smallDisk secondTaken.1 1 (secondTaken.1.ofsFragFind smallDisk 0 0 1 none) := by
  have hlegal : ∀ held, singleUse.Legal smallDisk held := fun _ => ⟨by decide, by decide, by decide, fun _ h => nomatch h⟩
  have hroom : secondTaken.1.Room smallDisk 3 0 := by decide +kernel
  refine ⟨?_, fun h => ?_, fun h => ?_⟩
  · have hthree : Owned smallDisk emptyDisk threeSingles.1 threeSingles.2 :=
      .step (.step (.step .start (hlegal _) trivial) (hlegal _) trivial) (hlegal _) trivial
    exact .step (.step (u := .fragFree ⟨3, 1, 1⟩ 0) hthree ⟨by decide +kernel, by decide⟩ trivial) (hlegal _) trivial
  · exact absurd (h 3 (by decide) 0 (by decide) hroom) (by decide +kernel)
  · exact h 4 0 _ rfl (by decide +kernel) 3 (by decide) 0 (by decide) (by decide) hroom

end Domain

end SpriteKernel.Ofs
