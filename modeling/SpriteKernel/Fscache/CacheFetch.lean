import SpriteKernel.Fscache.CacheMoves

/- How a block is found for a key that is not in the cache, and how pages are given back: the scan of the
   LRU list marks the blocks it goes past, and takes the first one that nobody needs. -/
namespace SpriteKernel.Fscache

open Function
open Shelves Tally
variable {c : CacheConfig} {s t u : BlockCache} {loose : Option Nat} {pending : Set BlockHashKey}
  {held : Nat → Int} {out : Nat → BlockOut} {a b f : Nat} {key : BlockHashKey} {cantBlock : Bool}

structure Marked (s t : BlockCache) : Prop where
  blocks : ∀ b, ∃ m, t.blocks b = { s.blocks b with flags := { (s.blocks b).flags with moveToFront := m } }
  files : ∀ f, ∃ flags, t.files f = { s.files f with flags := flags }
  rest : t = { s with blocks := t.blocks, files := t.files }

theorem Marked.refl (s : BlockCache) : Marked s s := ⟨fun _ => ⟨_, rfl⟩, fun _ => ⟨_, rfl⟩, rfl⟩

theorem Marked.trans (h : Marked s t) (h' : Marked t u) : Marked s u := by
  refine ⟨fun b => ?_, fun f => ?_, ?_⟩
  · obtain ⟨m, hm⟩ := h.blocks b
    obtain ⟨m', hm'⟩ := h'.blocks b
    exact ⟨m', by rw [hm', hm]⟩
  · obtain ⟨flags, hf⟩ := h.files f
    obtain ⟨flags', hf'⟩ := h'.files f
    exact ⟨flags', by rw [hf', hf]⟩
  · refine h'.rest.trans ?_
    rw [h.rest]

theorem Marked.mark (s : BlockCache) (b : Nat) : Marked s (s.setFlags b { (s.blocks b).flags with moveToFront := true }) := by
  refine ⟨fun a => ?_, fun _ => ⟨_, rfl⟩, rfl⟩
  by_cases ha : a = b
  · subst ha
    exact ⟨true, update_self _ _ _⟩
  · exact ⟨(s.blocks a).flags.moveToFront, update_of_ne ha _ _⟩

theorem Marked.startFileSync (s : BlockCache) (f : Nat) : Marked s (s.startFileSync f) := by
  refine ⟨fun _ => ⟨_, rfl⟩, fun g => ?_, rfl⟩
  by_cases hg : g = f
  · subst hg
    exact ⟨_, update_self _ _ _⟩
  · exact ⟨(s.files g).flags, update_of_ne hg _ _⟩

section
variable (h : Marked s t)
include h

theorem Marked.unneeded (b : Nat) : (t.blocks b).unneeded = (s.blocks b).unneeded := by
  obtain ⟨m, hm⟩ := h.blocks b
  rw [hm]
  rfl

theorem Marked.inUse (b : Nat) : (t.blocks b).inUse = (s.blocks b).inUse := by
  obtain ⟨m, hm⟩ := h.blocks b
  rw [hm]
  rfl

theorem Marked.flagsFree (b : Nat) : (t.blocks b).flags.free = (s.blocks b).flags.free := by
  obtain ⟨m, hm⟩ := h.blocks b
  rw [hm]

theorem Marked.use : t.use = s.use := by rw [h.rest]

theorem Marked.view : t.view loose = s.view loose := by
  funext b
  obtain ⟨m, hm⟩ := h.blocks b
  unfold BlockCache.view
  rw [hm]
  rfl

end

theorem Accounts.marked (h : Accounts c loose pending s held out) (hm : Marked s t) : Accounts c loose pending t held out := by
  have hrest := hm.rest
  refine h.congr ?_ hm.view hm.use (by rw [hrest]) ⟨by rw [hrest], by rw [hrest], by rw [hrest]⟩ fun f => ?_
  · rw [hrest]
    exact h.calm
  · obtain ⟨flags, hf⟩ := hm.files f
    rw [hf]
    exact ⟨rfl, rfl, rfl⟩

theorem scanLru_eq (rest : List Nat) (s : BlockCache) : ∃ t, Marked s t ∧ BlockCache.scanLru rest s =
    match rest.find? fun b => (s.blocks b).unneeded with
    | none => (t, none)
    | some b => ((t.remove b).deleteBlock b, some b) := by
  induction rest generalizing s with
  | nil => exact ⟨s, Marked.refl s, rfl⟩
  | cons b rest ih =>
    have hgo : ∀ t, Marked s t → (s.blocks b).unneeded = false → BlockCache.scanLru (b :: rest) s = BlockCache.scanLru rest t →
        ∃ u, Marked s u ∧ BlockCache.scanLru (b :: rest) s =
          match (b :: rest).find? fun b => (s.blocks b).unneeded with
          | none => (u, none)
          | some b => ((u.remove b).deleteBlock b, some b) := by
      intro t ht hb heq
      obtain ⟨u, hu, hscan⟩ := ih t
      refine ⟨u, ht.trans hu, ?_⟩
      rw [heq, hscan, List.find?_cons_of_neg (by rw [hb]; decide), funext ht.unneeded]
    by_cases href : (s.blocks b).refCount > 0
    · refine hgo s (Marked.refl s) ?_ ?_
      · unfold FscacheBlock.unneeded
        rw [decide_eq_true href]
        rfl
      · exact if_pos href
    · by_cases hdirty : (s.blocks b).dirtyOrWritten = true
      · refine hgo _ ?_ ?_ ((if_neg href).trans (if_pos hdirty))
        · split
          · exact Marked.mark s b
          · exact (Marked.mark s b).trans (Marked.startFileSync _ _)
        · unfold FscacheBlock.unneeded
          rw [hdirty]
          simp
      · by_cases hdel : (s.blocks b).flags.deleted = true
        · refine hgo s (Marked.refl s) ?_ ((if_neg href).trans ((if_neg hdirty).trans (if_pos hdel)))
          unfold FscacheBlock.unneeded
          rw [hdel]
          simp
        · refine ⟨s, Marked.refl s, ?_⟩
          have hun : (s.blocks b).unneeded = true := by
            unfold FscacheBlock.unneeded
            rw [decide_eq_false href, Bool.eq_false_iff.2 hdirty, Bool.eq_false_iff.2 hdel]
            rfl
          have hfind : ((b :: rest).find? fun b => (s.blocks b).unneeded) = some b := List.find?_cons_of_pos hun
          rw [hfind]
          exact (if_neg href).trans ((if_neg hdirty).trans (if_neg hdel))

theorem unneeded_iff {block : FscacheBlock} (h : block.unneeded = true) :
    ¬ block.refCount > 0 ∧ block.dirtyOrWritten = false ∧ block.flags.deleted = false := by
  unfold FscacheBlock.unneeded at h
  simp only [Bool.and_eq_true, Bool.not_eq_true', decide_eq_false_iff_not] at h
  exact ⟨h.1.1, h.1.2, h.2⟩

section
variable (h : Accounts c none pending s held out)
include h

theorem Accounts.lru_cached (hb : b ∈ s.use .lru) : (s.view none b).place = .cached := by
  rw [h.listed.lists.mem] at hb
  unfold homeOf at hb
  split at hb
  next =>
    cases hp : (s.view none b).place with
    | cached => rfl
    | free =>
      rw [hp] at hb
      dsimp only at hb
      split at hb <;> cases hb
    | loose => rw [hp] at hb; cases hb
    | unmapped => rw [hp] at hb; cases hb
    | deleted => rw [hp] at hb; cases hb
  next => cases hb

/-- The block that is taken from the LRU list is no longer in the hash table. -/
theorem Accounts.deleteBlock (hp : (s.view none b).place = .cached)
    (hun : (s.blocks b).unneeded = true) : Accounts c (some b) pending ((s.remove b).deleteBlock b) held out := by
  obtain ⟨hz, hd, -⟩ := unneeded_iff hun
  have hself := h.hashed.self hp
  refine h.loosen_clean hp hz hd ?_
  unfold BlockCache.deleteBlock
  dsimp only
  rw [show (s.remove b).hash ((s.remove b).blocks b |>.cacheInfo, (s.remove b).blocks b |>.blockNum) = some (some b) from hself]
  rfl

/-- `FetchBlock` takes the first unneeded block of the LRU list, if it looks at the list at all. -/
theorem Accounts.fetchBlock :
    (∃ t, Marked s t ∧ Accounts c none pending t held out ∧ s.fetchBlock cantBlock = (t, none) ∧
      ((s.numAvailBlocks > s.minNumAvailBlocks ∨ cantBlock = true) → ∀ b ∈ s.use .lru, (s.blocks b).unneeded = false)) ∨
    ∃ t b, Marked s t ∧ (s.use .lru).find? (fun b => (s.blocks b).unneeded) = some b ∧
      s.fetchBlock cantBlock = ((t.remove b).deleteBlock b, some b) ∧
      Accounts c (some b) pending ((t.remove b).deleteBlock b) held out := by
  unfold BlockCache.fetchBlock
  split
  next hlook =>
    obtain ⟨t, ht, hscan⟩ := scanLru_eq (s.use .lru) s
    rw [hscan]
    cases hfind : (s.use .lru).find? fun b => (s.blocks b).unneeded with
    | none =>
      refine .inl ⟨t, ht, h.marked ht, rfl, fun _ b hb => ?_⟩
      have hnot := List.find?_eq_none.1 hfind b hb
      exact Bool.eq_false_iff.2 hnot
    | some b =>
      have hmem := List.mem_of_find?_eq_some hfind
      have hun := List.find?_some hfind
      have hp : (t.view none b).place = .cached := by
        rw [ht.view]
        exact h.lru_cached hmem
      refine .inr ⟨t, b, ht, rfl, rfl, (h.marked ht).deleteBlock hp ?_⟩
      rw [ht.unneeded]
      exact hun
  next hnot => exact .inl ⟨s, Marked.refl s, h, rfl, fun hlook => absurd hlook hnot⟩

end

/-! ### Allocation -/

/-- There is a block for a new key: a free one; one of the LRU list that nobody needs, if enough are available or the
    caller cannot wait; or a page to be mapped, if the cache may grow and has nothing older than VM, or may not and
    the caller cannot wait. -/
def BlockCache.CanAllocate (s : BlockCache) (cantBlock : Bool) (vm : VmAnswer) : Prop :=
  ((s.numAvailBlocks > s.minNumAvailBlocks ∨ cantBlock = true) ∧
    (s.use .partFree ≠ [] ∨ s.use .totFree ≠ [] ∨ ∃ b ∈ s.use .lru, (s.blocks b).unneeded = true)) ∨
  (s.use .unmapped ≠ [] ∧ vm.mapped = true ∧
    if s.numCacheBlocks ≥ s.maxCacheBlocks then cantBlock = true else s.oldestIsNewer vm = true)

theorem takeFree_none (h : s.takeFree c cantBlock = none) :
    ¬ ((s.numAvailBlocks > s.minNumAvailBlocks ∨ cantBlock = true) ∧ (s.use .partFree ≠ [] ∨ s.use .totFree ≠ [])) := by
  unfold BlockCache.takeFree at h
  rintro ⟨hlook, hfree⟩
  rw [if_pos hlook] at h
  split at h
  next => cases h
  next => cases h
  next hpart htot =>
    obtain hne | hne := hfree
    · exact hne hpart
    · exact hne htot

theorem createBlock_none {retBlock mapped : Bool} (h : s.createBlock c retBlock mapped = none) :
    ¬ (s.use .unmapped ≠ [] ∧ mapped = true) := by
  unfold BlockCache.createBlock at h
  rintro ⟨hne, hm⟩
  split at h
  next hnil => exact hne hnil
  next =>
    rw [if_pos hm] at h
    dsimp only at h
    split at h <;> cases h

theorem Accounts.getBlock {vm : VmAnswer} (h : Accounts c none pending s held out) :
    (∃ t, Marked s t ∧ Accounts c none pending t held out ∧ s.getBlock c cantBlock vm = (t, none) ∧
      ¬ (s.use .unmapped ≠ [] ∧ vm.mapped = true) ∧
      ((s.numAvailBlocks > s.minNumAvailBlocks ∨ cantBlock = true) → ∀ b ∈ s.use .lru, (s.blocks b).unneeded = false)) ∨
    ∃ t b, s.getBlock c cantBlock vm = (t, some b) ∧ Accounts c (some b) pending t held out := by
  unfold BlockCache.getBlock
  cases hc : s.createBlock c true vm.mapped with
  | some r =>
    obtain ⟨t, b⟩ := r
    exact .inr ⟨t, b, rfl, h.createBlock hc⟩
  | none =>
    obtain ⟨t, hm, ht, heq, hall⟩ | ⟨t, b, -, -, heq, hacc⟩ := @Accounts.fetchBlock _ _ _ _ _ cantBlock h
    · exact .inl ⟨t, hm, ht, heq, createBlock_none hc, hall⟩
    · exact .inr ⟨_, b, heq, hacc⟩

/-- A block is had exactly if there is one to be had. -/
theorem Accounts.allocateBlock {vm : VmAnswer} (h : Accounts c none pending s held out) :
    (∃ t, Marked s t ∧ Accounts c none pending t held out ∧ s.allocateBlock c cantBlock vm = (t, none) ∧ ¬ s.CanAllocate cantBlock vm) ∨
    ∃ t b, s.allocateBlock c cantBlock vm = (t, some b) ∧ Accounts c (some b) pending t held out := by
  have hnot : ∀ (_ : ¬ ((s.numAvailBlocks > s.minNumAvailBlocks ∨ cantBlock = true) ∧ (s.use .partFree ≠ [] ∨ s.use .totFree ≠ [])))
      (_ : (s.numAvailBlocks > s.minNumAvailBlocks ∨ cantBlock = true) → ∀ b ∈ s.use .lru, (s.blocks b).unneeded = false)
      (_ : ¬ (s.use .unmapped ≠ [] ∧ vm.mapped = true ∧
        if s.numCacheBlocks ≥ s.maxCacheBlocks then cantBlock = true else s.oldestIsNewer vm = true)), ¬ s.CanAllocate cantBlock vm := by
    intro hfree hlru hpage hcan
    obtain ⟨hlook, hp | ht | ⟨b, hb, hun⟩⟩ | hmap := hcan
    · exact hfree ⟨hlook, .inl hp⟩
    · exact hfree ⟨hlook, .inr ht⟩
    · rw [hlru hlook b hb] at hun
      cases hun
    · exact hpage hmap
  unfold BlockCache.allocateBlock
  cases hfree : s.takeFree c cantBlock with
  | some r =>
    obtain ⟨t, b⟩ := r
    exact .inr ⟨t, b, rfl, h.takeFree hfree⟩
  | none =>
    have hf := takeFree_none hfree
    dsimp only
    split
    next hfull =>
      -- no more blocks are allowed
      obtain ⟨t, hm, ht, heq, hall⟩ | ⟨t, b, -, -, heq, hacc⟩ := @Accounts.fetchBlock _ _ _ _ _ cantBlock h
      · rw [heq]
        dsimp only
        split
        next hcant =>
          obtain ⟨u, hm', hu, heq', hpage, -⟩ | ⟨u, b, heq', hacc⟩ := @Accounts.getBlock _ _ _ _ _ cantBlock vm ht
          · refine .inl ⟨u, hm.trans hm', hu, heq', hnot hf hall fun hp => hpage ⟨?_, hp.2.1⟩⟩
            rw [hm.use]
            exact hp.1
          · exact .inr ⟨u, b, heq', hacc⟩
        next hcant =>
          refine .inl ⟨t, hm, ht, rfl, hnot hf hall fun hp => hcant ?_⟩
          have hlast := hp.2.2
          rw [if_pos hfull] at hlast
          exact hlast
      · rw [heq]
        exact .inr ⟨_, b, rfl, hacc⟩
    next hroom =>
      split
      next hnewer =>
        obtain ⟨t, hm, ht, heq, hpage, hall⟩ | ⟨t, b, heq, hacc⟩ := @Accounts.getBlock _ _ _ _ _ cantBlock vm h
        · exact .inl ⟨t, hm, ht, heq, hnot hf hall fun hp => hpage ⟨hp.1, hp.2.1⟩⟩
        · exact .inr ⟨t, b, heq, hacc⟩
      next hold =>
        obtain ⟨t, hm, ht, heq, hall⟩ | ⟨t, b, -, -, heq, hacc⟩ := @Accounts.fetchBlock _ _ _ _ _ cantBlock h
        · refine .inl ⟨t, hm, ht, heq, hnot hf hall fun hp => hold ?_⟩
          have hlast := hp.2.2
          rw [if_neg hroom] at hlast
          exact hlast
        · exact .inr ⟨_, b, heq, hacc⟩

/-! ### Fscache_FetchBlock -/

/-- A process gets a block for the key, or does not let go of the monitor before it has one. -/
def BlockCache.FetchAllowed (s : BlockCache) (f : Nat) (n : Int) (flags : FetchFlags) (vms : List VmAnswer) : Prop :=
  (∃ b, s.hash (f, n) = some (some b)) ∨ (∃ vm, vms.head? = some vm ∧ s.CanAllocate flags.cantBlock vm) ∨
    (flags.dontBlock = false ∧ (flags.cantBlock = true ∨ s.use .lru = []))

def received (held : Nat → Int) : CacheEnd → Nat → Int
  | .returns (some b) => update held b (held b + 1)
  | _ => held

section Fetch
variable {n : Int} {flags : FetchFlags} {now : Int} {e : CacheEnd}

/-- The key is not in the cache: the entry without a block stays only if none is to be had. -/
theorem Accounts.fetchLoop_absent (vms : List VmAnswer) (h : Accounts c none pending s held out) (hmem : (f, n) ∈ pending)
    (hs : BlockCache.fetchLoop c f n flags now vms s = some (t, e)) :
    ∃ pending' ⊆ pending, Accounts c none pending' t (received held e) out ∧
      ((∃ vm, vms.head? = some vm ∧ s.CanAllocate flags.cantBlock vm) ∨
        (flags.dontBlock = false ∧ (flags.cantBlock = true ∨ s.use .lru = [])) → (f, n) ∉ pending') := by
  induction vms generalizing s with
  | nil => cases hs
  | cons vm vms ih =>
    have hnil : s.hash (f, n) = some none := (h.hashed.nil (f, n)).2 hmem
    have hfind : s.hashFind (f, n) = s := by
      unfold BlockCache.hashFind
      rw [hnil]
    unfold BlockCache.fetchLoop at hs
    rw [hfind, hnil] at hs
    obtain ⟨u, hm, hu, heq, hcannot⟩ | ⟨u, b, heq, hu⟩ := @Accounts.allocateBlock _ _ _ _ _ flags.cantBlock vm h
    · have hspin : (∃ vm', (vm :: vms).head? = some vm' ∧ s.CanAllocate flags.cantBlock vm') ∨
          (flags.dontBlock = false ∧ (flags.cantBlock = true ∨ s.use .lru = [])) →
          flags.dontBlock = false ∧ (flags.cantBlock = true ∨ u.use .lru = []) := by
        rintro (⟨vm', hvm, hcan⟩ | hspin)
        · exact absurd (Option.some.inj hvm ▸ hcan) hcannot
        · rw [hm.use]
          exact hspin
      rw [heq] at hs
      dsimp only at hs
      split at hs
      next hdont =>
        cases hs
        refine ⟨pending, subset_rfl, hu, fun hallow => ?_⟩
        rw [(hspin hallow).1] at hdont
        cases hdont
      next =>
        split at hs
        next =>
          obtain ⟨pending', hsub, hacc, hgone⟩ := ih hu hs
          exact ⟨pending', hsub, hacc, fun hallow => hgone (.inr (hspin hallow))⟩
        next hwait =>
          cases hs
          exact ⟨pending, subset_rfl, hu, fun hallow => absurd (hspin hallow).2 hwait⟩
    · rw [heq] at hs
      cases hs
      exact ⟨_, Set.sdiff_subset, hu.enterBlock hmem, fun _ hin => hin.2 rfl⟩

theorem Accounts.fetchLoop {vms : List VmAnswer} (h : Accounts c none pending s held out)
    (hs : BlockCache.fetchLoop c f n flags now vms s = some (t, e)) :
    ∃ pending', Accounts c none pending' t (received held e) out ∧ (s.FetchAllowed f n flags vms → pending' ⊆ pending) := by
  cases hkey : s.hash (f, n) with
  | some o =>
    cases o with
    | none =>
      obtain ⟨pending', hsub, hacc, -⟩ := h.fetchLoop_absent vms ((h.hashed.nil (f, n)).1 hkey) hs
      exact ⟨pending', hacc, fun _ => hsub⟩
    | some b =>
      obtain ⟨hp, hk⟩ := (h.hashed.block (f, n) b).1 hkey
      have hf : (s.blocks b).cacheInfo = f := (congrArg Prod.fst hk).symm
      have hnum : (s.blocks b).fileNum = c.fileNum f := hf ▸ (h.owned hp).fileNum
      refine ⟨pending, ?_, fun _ => subset_rfl⟩
      cases vms with
      | nil => cases hs
      | cons vm vms =>
        have hfind : s.hashFind (f, n) = s := by
          unfold BlockCache.hashFind
          rw [hkey]
        unfold BlockCache.fetchLoop at hs
        rw [hfind, hkey] at hs
        dsimp only at hs
        rw [if_neg (not_not.2 hnum)] at hs
        split at hs
        · cases hs
          split <;> exact h
        · cases hs
          exact h.referenceBlock hp
  | none =>
    obtain ⟨r, hr⟩ : ∃ r : BlockCache, r = { s with hash := update s.hash (f, n) (some none) } := ⟨_, rfl⟩
    have hrf : s.hashFind (f, n) = r := by
      unfold BlockCache.hashFind
      rw [hkey, hr]
    have hacc : Accounts c none (insert (f, n) pending) r held out := by
      rw [hr]
      exact ⟨h.calm, h.listed, h.blocks, h.hashed.look hkey, h.dirty, h.counted⟩
    have hmem : (f, n) ∈ insert (f, n) pending := Set.mem_insert _ _
    -- once the entry is made, the loop is the same
    have hsame : BlockCache.fetchLoop c f n flags now vms r = some (t, e) := by
      have hrr : r.hashFind (f, n) = r := by
        unfold BlockCache.hashFind
        rw [(hacc.hashed.nil (f, n)).2 hmem]
      cases vms with
      | nil => cases hs
      | cons vm vms =>
        unfold BlockCache.fetchLoop at hs ⊢
        rw [hrf] at hs
        rw [hrr]
        rw [(hacc.hashed.nil (f, n)).2 hmem] at hs ⊢
        exact hs
    obtain ⟨pending', hsub, hacc', hgone⟩ := hacc.fetchLoop_absent vms hmem hsame
    refine ⟨pending', hacc', fun hallow key hin => ?_⟩
    obtain hb | hallow := hallow
    · obtain ⟨b, hb⟩ := hb
      rw [hkey] at hb
      cases hb
    · refine (hsub hin).resolve_left fun heq => ?_
      refine hgone ?_ (heq ▸ hin)
      rw [hr]
      exact hallow

end Fetch
end SpriteKernel.Fscache
