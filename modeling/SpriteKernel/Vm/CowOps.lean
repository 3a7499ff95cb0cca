import SpriteKernel.Vm.CowLocks

/- What `COR` and `COW` do to memory. -/
namespace SpriteKernel.Vm.Memory

open Function List
variable {π : Type} {s s' s'' : Memory π} {e : Env π} {n k : Nat} {page : Int}

/-- Entries that are copy-on-reference name another segment than before. -/
structure Retarget (list : List Nat) (s s' : Memory π) : Prop where
  core : s'.coreMap = s.coreMap
  infos : s'.infos = s.infos
  pages : ∀ j q, s'.pte j q = s.pte j q ∨
    (j ∈ list ∧ (s.pte j q).cor = true ∧ ∃ x, s'.pte j q = { s.pte j q with pageFrame := x })

namespace Retarget
variable {list : List Nat}

section
variable (h : Retarget list s s')
include h

theorem light (hs : Sound s) : Light s s' where
  core := h.core
  lists := by
    intro i
    exact h.infos.symm ▸ List.Sublist.refl _
  pages := by
    intro j q
    rcases h.pages j q with heq | ⟨-, hc, x, heq⟩
    · rw [heq]
      exact ⟨rfl, fun _ => rfl, id⟩
    · obtain ⟨hr, hw, hcow⟩ := (hs.linked.sound j q).cor hc
      rw [heq]
      refine ⟨rfl, fun hres => (by cases hr.symm.trans hres), fun _ => ⟨fun _ => ⟨hr, hw, hcow⟩, ?_⟩⟩
      intro _ ho
      simp [hw, hcow] at ho

theorem cor (j : Nat) (q : Int) : (s'.pte j q).cor = (s.pte j q).cor := by
  rcases h.pages j q with heq | ⟨-, -, x, heq⟩
  · rw [heq]
  · rw [heq]

theorem off {j : Nat} (hj : j ∉ list) (q : Int) : s'.pte j q = s.pte j q := by
  rcases h.pages j q with heq | ⟨hm, -⟩
  · exact heq
  · exact absurd hm hj

theorem cons : Retarget (k :: list) s s' where
  core := h.core
  infos := h.infos
  pages := by
    intro j q
    rcases h.pages j q with heq | ⟨hm, hrest⟩
    · exact .inl heq
    · exact .inr ⟨mem_cons_of_mem _ hm, hrest⟩

end

theorem after (x : Nat) (hc : (s.pte k page).cor = true)
    (h : Retarget list (s.setPte k page { s.pte k page with pageFrame := x }) s') : Retarget (k :: list) s s' where
  core := h.core
  infos := h.infos
  pages := by
    intro j q
    have hp := h.pages j q
    rw [pte_setPte] at hp
    by_cases hj : j = k ∧ q = page
    · obtain ⟨rfl, rfl⟩ := hj
      rw [setEntry_self] at hp
      refine .inr ⟨mem_cons_self, hc, ?_⟩
      rcases hp with heq | ⟨-, -, y, heq⟩
      · exact ⟨x, heq⟩
      · exact ⟨y, heq⟩
    · rw [setEntry_of_ne hj] at hp
      rcases hp with heq | ⟨hm, hrest⟩
      · exact .inl heq
      · exact .inr ⟨mem_cons_of_mem _ hm, hrest⟩

end Retarget

theorem newMasterLoop_retarget (n : Nat) (page : Int) (list : List Nat) (mast : Option Nat) (others : Bool)
    (s : Memory π) : Retarget list s (newMasterLoop n page list mast others s).2.2 := by
  induction list generalizing mast others s with
  | nil => exact ⟨rfl, rfl, fun _ _ => .inl rfl⟩
  | cons k rest ih =>
    unfold newMasterLoop
    split
    next hd =>
      cases mast with
      | some x => exact (ih _ _ _).after x hd.2.1
      | none => exact (ih _ _ _).cons
    · exact (ih _ _ _).cons

theorem newMasterLoop_found (n : Nat) (page : Int) (list : List Nat) (x : Nat) (others : Bool) (s : Memory π) :
    (newMasterLoop n page list (some x) others s).1 = some x := by
  induction list generalizing others s with
  | nil => rfl
  | cons k rest ih =>
    unfold newMasterLoop
    split
    · exact ih _ _
    · exact ih _ _

variable {others : Bool} {list : List Nat}

theorem newMasterLoop_some (h : (newMasterLoop n page list none others s).1 = some k) : k ∈ list ∧ (s.pte k page).cor = true := by
  induction list with
  | nil => nomatch h
  | cons j rest ih =>
    unfold newMasterLoop at h
    split at h
    next hd =>
      rw [newMasterLoop_found] at h
      cases h
      exact ⟨mem_cons_self, hd.2.1⟩
    · exact ⟨mem_cons_of_mem _ (ih h).1, (ih h).2⟩

/-- There is none exactly when no segment of the list is copy-on-reference off this one. -/
theorem newMasterLoop_none : (newMasterLoop n page list none others s).1 = none ↔ ∀ j ∈ list, ¬s.DependsOn j n page := by
  induction list with
  | nil => simp [newMasterLoop]
  | cons j rest ih =>
    unfold newMasterLoop
    by_cases hd : s.DependsOn j n page
    · simp [hd, newMasterLoop_found]
    · simp [hd, ih]

theorem not_mem_later {l : List Nat} (hl : l.Nodup) (n : Nat) : n ∉ later l n := by
  induction l with
  | nil => exact not_mem_nil
  | cons a l ih =>
    obtain ⟨ha, hl⟩ := nodup_cons.1 hl
    by_cases han : a = n
    · subst han
      simpa [later] using ha
    · simpa [later, han] using ih hl

theorem Sound.cowList_nodup (hs : Sound s) (n : Nat) : (s.cowList n).Nodup := by
  unfold cowList
  split
  · exact hs.chains _
  · exact nodup_nil

/-- A frame has been allocated for a page, and its entry has not been set yet. -/
structure Taken (s s' : Memory π) (f n : Nat) (page : Int) : Prop where
  notZero : f ≠ 0
  unlocked : (s.coreMap f).lockCount = 0
  pte : s'.pte = unmap s.pte s.coreMap f
  infos : s'.infos = s.infos
  new : s'.coreMap f = ⟨some (n, page), 1⟩
  virt : ∀ g, g ≠ f → (s'.coreMap g).virtPage = (s.coreMap g).virtPage
  same : ∀ g, g ≠ f → g ≠ 0 → (s'.coreMap g).lockCount = (s.coreMap g).lockCount

theorem pageAllocate_taken {f : Nat} (h : s.pageAllocate f n page = some s') : Taken s s' f n page := by
  unfold pageAllocate at h
  split at h
  next hf =>
    cases h
    refine ⟨hf.1, hf.2, ?_, ?_, ?_, ?_, ?_⟩
    · rw [pte_setCore, pte_evict]
    · rw [infos_setCore, infos_evict]
    · simp [setCore]
    · intro g hg
      simp [setCore, hg]
    · intro g hg _
      simp [setCore, hg]
  · nomatch h

variable {mast : Nat}

theorem fillFrame_eq {f : Nat} {ok : Bool} (h : s.fillFrame e mast page f = (ok, s')) :
    s'.pte = s.pte ∧ s'.infos = s.infos ∧ (∀ g, (s'.coreMap g).virtPage = (s.coreMap g).virtPage) ∧
      ∀ g, g ≠ 0 → (s'.coreMap g).lockCount = (s.coreMap g).lockCount := by
  unfold fillFrame getMasterPF at h
  have hlock : ∀ (c : Nat → Core) (x g : Nat),
      (update c x { c x with lockCount := (c x).lockCount + 1 } g).virtPage = (c g).virtPage := by
    intro c x g
    by_cases hg : g = x
    · subst hg
      simp
    · simp [hg]
  by_cases hr : (s.pte mast page).physRes
  · rw [if_pos hr] at h
    cases hf : (s.pte mast page).pageFrame with
    | zero =>
      rw [hf] at h
      have hs : s'.pte = (s.lockPage 0).pte ∧ s'.infos = (s.lockPage 0).infos ∧ s'.coreMap = (s.lockPage 0).coreMap := by
        by_cases ho : e.readOk mast page = true <;> simp only [ho, if_true] at h <;>
          (obtain ⟨-, rfl⟩ := Prod.mk.inj h; exact ⟨rfl, rfl, rfl⟩)
      refine ⟨hs.1, hs.2.1, ?_, ?_⟩
      · intro g
        rw [hs.2.2]
        exact hlock s.coreMap 0 g
      · intro g hg
        rw [hs.2.2]
        simp [lockPage, setCore, hg]
    | succ x =>
      rw [hf] at h
      cases h
      have hc : (((s.lockPage (x + 1)).copyPage (x + 1) f).unlockPage (x + 1)).coreMap = s.coreMap := by
        simp [unlockPage, lockPage, setCore, copyPage]
      refine ⟨rfl, rfl, ?_, ?_⟩ <;> simp [hc]
  · rw [if_neg hr] at h
    have hs : s'.pte = s.pte ∧ s'.infos = s.infos ∧ s'.coreMap = s.coreMap := by
      by_cases ho : e.readOk mast page = true <;> simp only [ho, if_true] at h <;>
        (obtain ⟨-, rfl⟩ := Prod.mk.inj h; exact ⟨rfl, rfl, rfl⟩)
    refine ⟨hs.1, hs.2.1, ?_, ?_⟩ <;> simp [hs.2.2]

namespace Taken
variable {f : Nat} {x : Pte}

section
variable (h : Taken s s' f n page) {v : Option (Nat × Int)}
include h

/-- Nothing has happened to the frame, or to any other, that counts for the frame taken. -/
theorem next (hp : s''.pte = s'.pte) (hi : s''.infos = s'.infos)
    (hv : ∀ g, (s''.coreMap g).virtPage = (s'.coreMap g).virtPage)
    (hl : ∀ g, g ≠ 0 → (s''.coreMap g).lockCount = (s'.coreMap g).lockCount) : Taken s s'' f n page where
  notZero := h.notZero
  unlocked := h.unlocked
  pte := hp.trans h.pte
  infos := hi.trans h.infos
  new := by
    have hvf := hv f
    have hlf := hl f h.notZero
    rw [h.new] at hvf hlf
    cases hc : s''.coreMap f with
    | mk v l =>
      rw [hc] at hvf hlf
      exact congrArg₂ Core.mk hvf hlf
  virt := fun g hg => (hv g).trans (h.virt g hg)
  same := fun g hg hg0 => (hl g hg0).trans (h.same g hg hg0)

theorem recount (k : Nat) (a b c : Int) (i : Option Nat) :
    Taken s (s'.setSeg k ⟨(s'.segs k).toSegment, a, b, c, i⟩) f n page :=
  h.next (pte_recount s' k a b c i) rfl (fun _ => rfl) (fun _ _ => rfl)

theorem steady (hc : s''.coreMap = update s'.coreMap f ⟨v, 0⟩) : Steady s s'' := by
  intro g hg
  rw [hc]
  by_cases hgf : g = f
  · subst hgf
    simp only [update_self]
    exact ⟨h.unlocked.symm, fun hp => absurd hp (by have := h.unlocked; omega)⟩
  · rw [update_of_ne hgf, h.virt g hgf]
    exact ⟨h.same g hgf hg, fun _ ho => ho⟩

theorem relock {pte : Nat → Int → Pte} (hc : s''.coreMap = update s'.coreMap f ⟨v, 0⟩)
    (hl : Linked pte (update s.coreMap f ⟨v, 0⟩)) : Linked pte s''.coreMap := by
  apply hl.relock
  · intro g
    rw [hc]
    by_cases hgf : g = f
    · simp [hgf]
    · rw [update_of_ne hgf, update_of_ne hgf]
      exact h.virt g hgf
  · intro g hg
    have hlg := hl.locks g hg
    rw [hc]
    by_cases hgf : g = f
    · simp [hgf]
    · rw [update_of_ne hgf] at hlg ⊢
      rw [h.same g hgf hg]
      exact hlg

theorem free (hs : Sound s) : Sound (s'.pageFree f) ∧ Steady s (s'.pageFree f) := by
  have hc : (s'.pageFree f).coreMap = update s'.coreMap f ⟨none, 0⟩ := rfl
  refine ⟨⟨?_, ?_⟩, h.steady hc⟩
  · apply h.relock hc
    rw [pageFree, pte_setCore, h.pte]
    exact hs.linked.unmap f
  · intro i
    rw [pageFree, infos_setCore, h.infos]
    exact hs.chains i

theorem fill (hs : Sound s) (hp : (s.pte n page).physRes = false)
    (hx : x.physRes = true) (hxf : x.pageFrame = f) (hxs : x.Sound) :
    Sound ((s'.setPTE n page x).unlockPage f) ∧ Steady s ((s'.setPTE n page x).unlockPage f) := by
  have hc : ((s'.setPTE n page x).unlockPage f).coreMap = update s'.coreMap f ⟨some (n, page), 0⟩ := by
    simp [unlockPage, setCore, h.new]
  refine ⟨⟨?_, ?_⟩, h.steady hc⟩
  · apply h.relock hc
    rw [pte_unlockPage, pte_setPTE, h.pte]
    exact hs.linked.replace h.notZero hp hx hxf hxs
  · intro i
    rw [unlockPage, infos_setCore, infos_setPTE, h.infos]
    exact hs.chains i

end

end Taken

/-- A copy-on-reference fault gives all locks back, whether or not the page can be read. -/
theorem cor_done {r : Bool × Memory π} (hs : Sound s) (hc : (s.pte n page).cor = true)
    (h : s.cor e n page = some r) : Sound r.2 ∧ Steady s r.2 := by
  obtain ⟨s₁, ha, h⟩ := Option.bind_eq_some_iff.1 h
  have ht := pageAllocate_taken ha
  obtain ⟨⟨ok, s₂⟩, hfill⟩ : ∃ x, s₁.fillFrame e (s.pte n page).pageFrame page (e.pick s) = x := ⟨_, rfl⟩
  obtain ⟨hp, hi, hv, hl⟩ := fillFrame_eq hfill
  replace ht := ht.next hp hi hv hl
  rw [hfill] at h
  cases ok with
  | false =>
    cases h
    exact ht.free hs
  | true =>
    cases h
    replace ht := ht.recount n (s₂.segs n).resPages (s₂.segs n).numCOWPages ((s₂.segs n).numCORPages - 1)
      (s₂.segs n).cowInfoPtr
    apply (Light.seeIfLastCOR _ _ page).after
    exact ht.fill hs ((hs.linked.sound n page).cor hc).1 rfl rfl ⟨nofun, nofun⟩

/-- A resident page that is copied on demand has some segment that it can be given to. -/
def Paired (s : Memory π) (n : Nat) (page : Int) : Prop :=
  (s.pte n page).cow = true → (s.pte n page).physRes = true → (s.pte n page).pageFrame ≠ 0 →
    ∃ k ∈ later (s.cowList n) n, s.DependsOn k n page

theorem Sound.lockPage (hs : Sound s) (g : Nat) : Sound (s.lockPage g) where
  linked := by
    apply hs.linked.relock
    · intro f
      by_cases hf : f = g
      · subst hf
        simp [Memory.lockPage, setCore]
      · simp [Memory.lockPage, setCore, hf]
    · intro f hf
      have := hs.linked.locks f hf
      by_cases hfg : f = g
      · subst hfg
        simp only [Memory.lockPage, setCore, update_self]
        omega
      · simp only [Memory.lockPage, setCore, update_of_ne hfg]
        exact this
  chains := hs.chains

/-- The lock that has been taken before is given back. -/
theorem unlock_done {g : Nat} (hs : Sound s) (hs' : Sound s') (h : Steady (s.lockPage g) s') :
    Sound (s'.unlockPage g) ∧ Steady s (s'.unlockPage g) := by
  have hg : g ≠ 0 → (s'.coreMap g).lockCount = (s.coreMap g).lockCount + 1 := by
    intro h0
    have := (h g h0).1
    simpa [lockPage, setCore] using this
  refine ⟨⟨?_, hs'.chains⟩, ?_⟩
  · apply hs'.linked.relock
    · intro f
      by_cases hf : f = g
      · subst hf
        simp [unlockPage, setCore]
      · simp [unlockPage, setCore, hf]
    · intro f hf
      by_cases hfg : f = g
      · subst hfg
        have hl := hs.linked.locks f hf
        simp only [unlockPage, setCore, update_self]
        omega
      · simp only [unlockPage, setCore, update_of_ne hfg]
        exact hs'.linked.locks f hf
  · intro f hf
    by_cases hfg : f = g
    · subst hfg
      have hv := (h f hf).2
      simp only [unlockPage, lockPage, setCore, update_self] at hv ⊢
      exact ⟨by omega, fun hp ho => hv (by omega) ho⟩
    · have := h f hf
      simp only [unlockPage, lockPage, setCore, update_of_ne hfg] at this ⊢
      exact this

theorem copyResident_done (hs : Sound s) (hn : mast ≠ n)
    (hlock : 0 < (s.coreMap (s.pte n page).pageFrame).lockCount ∨ (s.pte n page).pageFrame = 0)
    (hc : (s.pte mast page).cor = true) (h : s.copyResident e n page mast others = some s') :
    ∃ t, Sound t ∧ Steady s t ∧ t.pte n page = s.pte n page ∧ s' = t.unlockPage (s.pte n page).pageFrame := by
  obtain ⟨s₁, ha, h⟩ := Option.bind_eq_some_iff.1 h
  have ht := pageAllocate_taken ha
  have hkeep : s₁.pte n page = s.pte n page := by
    rw [ht.pte]
    apply unmap_of_ne
    intro hown
    have hframe := (hs.linked.owned _ _ _ hown).2
    rcases hlock with hl | h0
    · rw [hframe, ht.unlocked] at hl
      omega
    · exact ht.notZero (hframe.symm.trans h0)
  replace ht : Taken s (s₁.copyPage (s₁.pte n page).pageFrame (e.pick s)) (e.pick s) mast page :=
    ht.next rfl rfl (fun _ => rfl) fun _ _ => rfl
  obtain ⟨x, hx⟩ : ∃ x : Pte, x = { Pte.zero with
      virtRes := true, physRes := true, referenced := true, modified := true, cow := others, pageFrame := e.pick s } :=
    ⟨_, rfl⟩
  obtain ⟨hs', hst⟩ := ht.fill hs ((hs.linked.sound mast page).cor hc).1 (x := x) (by rw [hx]) (by rw [hx])
    (by rw [hx]; exact ⟨nofun, nofun⟩)
  generalize ht' : ((s₁.copyPage (s₁.pte n page).pageFrame (e.pick s)).setPTE mast page x).unlockPage (e.pick s) = t
    at hs' hst
  have htp : t.pte n page = s.pte n page := by
    rw [← ht', pte_unlockPage, pte_setPTE, setEntry_of_ne fun h => hn h.1.symm]
    exact hkeep
  refine ⟨t, hs', hst, htp, ?_⟩
  rw [← htp, ← ht', hx]
  exact (Option.some.inj h).symm

theorem giveAwayPage_done {t : Memory π} {dest : Nat} (hs : Sound s) (ht : Sound t)
    (h : Steady (s.lockPage (t.pte n page).pageFrame) t) (hres : (t.pte n page).physRes = true)
    (hcow : (t.pte n page).cow = true) (hd : (t.pte dest page).cor = true) :
    Sound (t.giveAwayPage n page dest others) ∧ Steady s (t.giveAwayPage n page dest others) := by
  obtain ⟨hu, hst⟩ := unlock_done hs ht h
  have hl : (t.pte n page).pageFrame ≠ 0 → 0 ≤ (t.coreMap (t.pte n page).pageFrame).lockCount - 1 := by
    intro hf
    have := hu.linked.locks _ hf
    simpa [unlockPage, setCore] using this
  have hcore : (t.giveAwayPage n page dest others).coreMap = update t.coreMap (t.pte n page).pageFrame
      ⟨(t.coreMap (t.pte n page).pageFrame).virtPage.map fun v => (dest, v.2),
        (t.coreMap (t.pte n page).pageFrame).lockCount - 1⟩ := rfl
  have hpte : (t.giveAwayPage n page dest others).pte =
      setEntry (setEntry t.pte dest page { t.pte n page with cow := others }) n page .zero := by
    simp [giveAwayPage, pageSwitch]
  refine ⟨⟨?_, ht.chains⟩, ?_⟩
  · rw [hcore, hpte]
    exact ht.linked.give hres hcow ((ht.linked.sound dest page).cor hd).1 hl
  · intro f hf
    have := hst f hf
    rw [hcore]
    by_cases hfg : f = (t.pte n page).pageFrame
    · subst hfg
      simpa [unlockPage, setCore] using this
    · simpa [unlockPage, setCore, hfg] using this

theorem copySwap_done (others : Bool) (hs : Sound s) (hc : (s.pte mast page).cor = true) :
    Sound (s.copySwap e n page mast others) ∧ Steady s (s.copySwap e n page mast others) := by
  obtain ⟨t, ht⟩ : ∃ t : Memory π, t = if e.copyOk n page mast then
      { s with swap := update s.swap mast (update (s.swap mast) page (s.swap n page)) } else s :=
    ⟨_, rfl⟩
  have hsame : t.pte = s.pte ∧ t.coreMap = s.coreMap ∧ t.infos = s.infos := by
    rw [ht]
    split <;> exact ⟨rfl, rfl, rfl⟩
  have heq : s.copySwap e n page mast others =
      t.setPTE mast page { Pte.zero with virtRes := true, onSwap := true, cow := others } := by
    rw [ht]
    rfl
  rw [heq]
  refine ⟨⟨?_, ?_⟩, ?_⟩
  · rw [pte_setPTE, coreMap_setPTE, hsame.1, hsame.2.1]
    exact hs.linked.rewrite ((hs.linked.sound mast page).cor hc).1 rfl ⟨nofun, fun _ _ => rfl⟩
  · rw [infos_setPTE, hsame.2.2]
    exact hs.chains
  · intro f _
    rw [coreMap_setPTE, hsame.2.1]
    exact ⟨rfl, fun _ ho => ho⟩

theorem pte_copySwap (hn : mast ≠ n) : (s.copySwap e n page mast others).pte n page = s.pte n page := by
  unfold copySwap
  rw [pte_setPTE, setEntry_of_ne fun h => hn h.1.symm]
  split <;> rfl

/-- Before the page is given to its new master, the counts of that one change. -/
theorem cowTo_eq (mast : Nat) (others resident deletePage : Bool) :
    ∃ t : Memory π, Light s t ∧ t.pte = s.pte ∧ s.cowTo e n page mast others resident deletePage =
      (if resident then
        if deletePage then some (t.giveAwayPage n page mast others) else t.copyResident e n page mast others
      else some (t.copySwap e n page mast others)).bind fun s => some (s.leaveIfDone mast) := by
  obtain ⟨t, ht⟩ : ∃ t, t = s.setSeg mast { s.segs mast with numCORPages := (s.segs mast).numCORPages - 1 } := ⟨_, rfl⟩
  have hl : Light s t := ht ▸ Light.recount s mast _ _ _ _
  have hp : t.pte = s.pte := by rw [ht, pte_recount]
  cases others with
  | false =>
    refine ⟨t, hl, hp, ?_⟩
    rw [ht]
    cases resident <;> cases deletePage <;> rfl
  | true =>
    refine ⟨t.setSeg mast { t.segs mast with numCOWPages := (t.segs mast).numCOWPages + 1 }, ?_, ?_, ?_⟩
    · exact hl.trans (Light.recount t mast _ _ _ _)
    · rw [pte_recount, hp]
    · rw [ht]
      cases resident <;> cases deletePage <;> rfl

variable {deletePage : Bool}

theorem cowTo_resident {b : Memory π} (hb : Sound b) (hs : Sound s)
    (hst : Steady (b.lockPage (s.pte n page).pageFrame) s) (hn : mast ≠ n) (hres : (s.pte n page).physRes = true)
    (hcow : (s.pte n page).cow = true) (hc : (s.pte mast page).cor = true)
    (h : s.cowTo e n page mast others true deletePage = some s') :
    (Sound s' ∧ Steady b s') ∧ (deletePage = false → s'.pte n page = s.pte n page) := by
  obtain ⟨t, hlight, hp, heq⟩ := cowTo_eq (s := s) (e := e) (n := n) mast others true deletePage
  rw [heq] at h
  obtain ⟨t', ht', h⟩ := Option.bind_eq_some_iff.1 h
  cases h
  have hts := hlight.sound hs
  replace hst := hst.trans hlight.steady
  rw [← hp] at hres hcow hc hst
  cases deletePage with
  | true =>
    cases ht'
    exact ⟨(Light.leaveIfDone _ mast).after (giveAwayPage_done hb hts hst hres hcow hc), nofun⟩
  | false =>
    have hlock : 0 < (t.coreMap (t.pte n page).pageFrame).lockCount ∨ (t.pte n page).pageFrame = 0 := by
      by_cases hf : (t.pte n page).pageFrame = 0
      · exact .inr hf
      · have hl := (hst _ hf).1
        have := hb.linked.locks _ hf
        simp only [lockPage, setCore, update_self] at hl
        exact .inl (by omega)
    obtain ⟨u, hu, hsu, hup, rfl⟩ := copyResident_done hts hn hlock hc ht'
    refine ⟨(Light.leaveIfDone _ mast).after (unlock_done hb hu (hst.trans hsu)), fun _ => ?_⟩
    rw [pte_leaveIfDone, pte_unlockPage, hup, hp]

theorem cowTo_swap (hs : Sound s) (hn : mast ≠ n)
    (hc : (s.pte mast page).cor = true) (h : s.cowTo e n page mast others false deletePage = some s') :
    (Sound s' ∧ Steady s s') ∧ s'.pte n page = s.pte n page := by
  obtain ⟨t, hlight, hp, heq⟩ := cowTo_eq (s := s) (e := e) (n := n) mast others false deletePage
  rw [heq] at h
  cases h
  rw [← hp] at hc
  obtain ⟨hs', hst⟩ := copySwap_done (e := e) (n := n) others (hlight.sound hs) hc
  refine ⟨(Light.leaveIfDone _ mast).after ⟨hs', hlight.steady.trans hst⟩, ?_⟩
  rw [pte_leaveIfDone, pte_copySwap hn, hp]

theorem findNewMasterSeg_light (hs : Sound s) {r : Option Nat × Bool × Memory π} (h : s.findNewMasterSeg n page = r) :
    Light s r.2.2 ∧ r.2.2.pte n page = s.pte n page := by
  have hr := newMasterLoop_retarget n page (later (s.cowList n) n) none false s
  subst h
  exact ⟨hr.light hs, hr.off (not_mem_later (hs.cowList_nodup n) n) page⟩

theorem findNewMasterSeg_some (hs : Sound s) (h : s.findNewMasterSeg n page = (some mast, others, s')) : mast ≠ n ∧ (s'.pte mast page).cor = true := by
  have hr := newMasterLoop_retarget n page (later (s.cowList n) n) none false s
  have heq : newMasterLoop n page (later (s.cowList n) n) none false s = (some mast, others, s') := h
  rw [heq] at hr
  obtain ⟨hm, hc⟩ := newMasterLoop_some (congrArg Prod.fst heq)
  refine ⟨?_, (hr.cor mast page).trans hc⟩
  rintro rfl
  exact not_mem_later (hs.cowList_nodup mast) mast hm

theorem findNewMasterSeg_none (s : Memory π) (n : Nat) (page : Int) :
    (s.findNewMasterSeg n page).1 = none ↔ ¬∃ k ∈ later (s.cowList n) n, s.DependsOn k n page := by
  unfold findNewMasterSeg
  rw [newMasterLoop_none]
  simp

theorem cow_end (s : Memory π) (n : Nat) (page : Int) :
    ∃ t : Memory π, Light s t ∧ t.pte n page = { s.pte n page with cow := false } ∧
      t = (s.setPte n page { s.pte n page with cow := false }).setSeg n
        { (s.setPte n page { s.pte n page with cow := false }).segs n with
          numCOWPages := ((s.setPte n page { s.pte n page with cow := false }).segs n).numCOWPages - 1 } := by
  refine ⟨_, (Light.clearCow s n page).trans (Light.recount _ n _ _ _ _), ?_, rfl⟩
  rw [pte_recount, pte_setPte, setEntry_self]

/-- The lock of a page that nobody is copy-on-reference off is not given back. -/
theorem lockPage_outcome (hs : Sound s) (hcow : (s.pte n page).cow = true) (hres : (s.pte n page).physRes = true)
    (hn : ¬∃ k ∈ later (s.cowList n) n, s.DependsOn k n page)
    (hc : s'.coreMap = (s.lockPage (s.pte n page).pageFrame).coreMap) : Outcome (Paired s n page) s s' where
  above := by
    intro f hf
    rw [hc]
    by_cases hfg : f = (s.pte n page).pageFrame
    · subst hfg
      simp only [lockPage, setCore, update_self]
      exact ⟨by omega, fun _ ho => ho⟩
    · simp only [lockPage, setCore, update_of_ne hfg]
      exact ⟨Int.le_refl _, fun _ ho => ho⟩
  steady := by
    intro hp f hf
    have hfg : f ≠ (s.pte n page).pageFrame := by
      rintro rfl
      exact hn (hp hcow hres hf)
    rw [hc]
    simp only [lockPage, setCore, update_of_ne hfg]
    exact ⟨trivial, fun _ ho => ho⟩
  raised := by
    intro hp
    have hg : (s.pte n page).pageFrame ≠ 0 := fun h0 => hp fun _ _ h => absurd h0 h
    refine ⟨(s.pte n page).pageFrame, hg, ?_, ?_⟩
    · rcases hs.linked.resident n page hres with h0 | hv
      · exact absurd h0 hg
      · rw [hc]
        simp [lockPage, setCore, hv]
    · rw [hc]
      simp only [lockPage, setCore, update_self]
      omega

theorem cow_resident (hs : Sound s) (hres : (s.pte n page).physRes = true)
    (hcow : (s.pte n page).cow = true)
    (h : (s.lockPage (s.pte n page).pageFrame).cow e n page true deletePage = some s') :
    (Sound s' ∧ Outcome (Paired s n page) s s') ∧
      (deletePage = false → s'.pte n page = { s.pte n page with cow := false }) := by
  obtain ⟨⟨mast, others, s₁⟩, hfind⟩ :
      ∃ r, (s.lockPage (s.pte n page).pageFrame).findNewMasterSeg n page = r := ⟨_, rfl⟩
  obtain ⟨hlight, hkeep⟩ := findNewMasterSeg_light (hs.lockPage _) hfind
  have hnone := findNewMasterSeg_none (s.lockPage (s.pte n page).pageFrame) n page
  rw [pte_lockPage] at hkeep
  unfold cow at h
  rw [hfind] at h hnone
  cases mast with
  | some mast =>
    have hp : Paired s n page := fun _ _ _ => by
      by_contra hn
      exact absurd (hnone.2 hn) nofun
    obtain ⟨hne, hc⟩ := findNewMasterSeg_some (hs.lockPage _) hfind
    obtain ⟨s₂, hto, h⟩ := Option.bind_eq_some_iff.1 h
    obtain ⟨hdone, hpte⟩ := cowTo_resident hs (hlight.sound (hs.lockPage _)) (hkeep ▸ hlight.steady) hne
      (hkeep ▸ hres) (hkeep ▸ hcow) hc hto
    obtain ⟨t, ht, htp, rfl⟩ := cow_end s₂ n page
    cases h
    refine ⟨⟨(ht.after hdone).1, (ht.after hdone).2.outcome hp⟩, fun hd => ?_⟩
    rw [htp, hpte hd, hkeep]
  | none =>
    have hn : ¬∃ k ∈ later (s.cowList n) n, s.DependsOn k n page := hnone.1 rfl
    obtain ⟨t, ht, htp, rfl⟩ := cow_end s₁ n page
    cases h
    have hall := hlight.trans ht
    refine ⟨⟨hall.sound (hs.lockPage _), ?_⟩, fun _ => by rw [htp, hkeep]⟩
    exact lockPage_outcome hs hcow hres hn hall.core

theorem cow_swap (hs : Sound s) (h : s.cow e n page false deletePage = some s') :
    (Sound s' ∧ Steady s s') ∧ s'.pte n page = { s.pte n page with cow := false } := by
  obtain ⟨⟨mast, others, s₁⟩, hfind⟩ : ∃ r, s.findNewMasterSeg n page = r := ⟨_, rfl⟩
  obtain ⟨hlight, hkeep⟩ := findNewMasterSeg_light hs hfind
  unfold cow at h
  rw [hfind] at h
  cases mast with
  | some mast =>
    obtain ⟨hne, hc⟩ := findNewMasterSeg_some hs hfind
    obtain ⟨s₂, hto, h⟩ := Option.bind_eq_some_iff.1 h
    obtain ⟨⟨hs₂, hst₂⟩, hpte⟩ := cowTo_swap (hlight.sound hs) hne hc hto
    obtain ⟨t, ht, htp, rfl⟩ := cow_end s₂ n page
    cases h
    refine ⟨ht.after ⟨hs₂, hlight.steady.trans hst₂⟩, ?_⟩
    rw [htp, hpte, hkeep]
  | none =>
    obtain ⟨t, ht, htp, rfl⟩ := cow_end s₁ n page
    cases h
    have hall := hlight.trans ht
    exact ⟨⟨hall.sound hs, hall.steady⟩, by rw [htp, hkeep]⟩

theorem pageValidate_done (hs : Sound s) (hc : (s.pte n page).cor = false)
    (hf : (s.pte n page).physRes = false → (s.pte n page).pageFrame = 0) :
    Sound (s.pageValidate n page) ∧ Steady s (s.pageValidate n page) := by
  unfold pageValidate
  split
  · exact ⟨hs, Steady.refl s⟩
  next hr =>
    rw [Bool.not_eq_true] at hr
    refine ⟨⟨?_, hs.chains⟩, Steady.refl s⟩
    rw [pte_setPte, pte_recount]
    exact hs.linked.validate hr rfl (hf hr) hc

end SpriteKernel.Vm.Memory
