import SpriteKernel.Vm.CowBalance

/- Every state that forks, faults and deletions lead to. -/
namespace SpriteKernel.Vm.Memory

open Function List
variable {π : Type} {s s' s'' : Memory π} {m : Params} {n : Nat} {page : Int}

/-- The operations of vmCOW.c, and what the rest of virtual memory does in between. -/
inductive Step (m : Params) : Memory π → Memory π → Prop
  /-- The child is a new segment, and so is `VmCOWInfo` if the parent has none. -/
  | fork (s : Memory π) (src dest i : Nat) : src ≠ dest → (∀ p, (s.pte dest p).physRes = false) →
      (∀ j, dest ∉ (s.infos j).cowList) → (∀ k, (s.segs k).cowInfoPtr ≠ some i) → Step m s (s.vmSegFork m src dest i)
  | cor (s : Memory π) (e : Env π) (n : Nat) (page : Int) (r : Bool × Memory π) :
      s.vmCOR m e n page = some r → Step m s r.2
  | cow (s : Memory π) (e : Env π) (n : Nat) (page : Int) (s' : Memory π) :
      s.vmCOW m e n page = some s' → Step m s s'
  | copySeg (s : Memory π) (e : Env π) (n : Nat) (r : Bool × Memory π) :
      s.vmCOWCopySeg m e n = some r → Step m s r.2
  | deleteFromSeg (s : Memory π) (e : Env π) (n : Nat) (firstPage lastPage : Int) (s' : Memory π) :
      s.vmCOWDeleteFromSeg m e n firstPage lastPage = some s' → Step m s s'
  /-- A page fault fills a frame. -/
  | fault (s s₁ : Memory π) (n : Nat) (page : Int) (f : Nat) (x : Pte) : (s.pte n page).physRes = false →
      s.pageAllocate f n page = some s₁ → x.physRes = true → x.pageFrame = f → x.cor = false →
      Step m s ((s₁.setPTE n page x).unlockPage f)
  /-- A page has been written to swap space. -/
  | pageOut (s : Memory π) (n : Nat) (page : Int) : (s.pte n page).physRes = true →
      Step m s (s.setPte n page { s.pte n page with onSwap := true })
  /-- A frame is freed, by the clock hand or because its page is deleted. -/
  | free (s : Memory π) (f : Nat) : Step m s ((s.evict f).pageFree f)
  | clear (s : Memory π) (n : Nat) (page : Int) (x : Pte) : (s.pte n page).physRes = false →
      x.physRes = false → x.cor = false → x.cow = false → x.onSwap = false → Step m s (s.setPte n page x)
  | lock (s : Memory π) (f : Nat) : Step m s (s.lockPage f)
  | unlock (s : Memory π) (f : Nat) : 0 < (s.coreMap f).lockCount → Step m s (s.unlockPage f)
  /-- Page contents, sizes and counts change. -/
  | other (s s' : Memory π) : s'.pte = s.pte → s'.coreMap = s.coreMap → s'.infos = s.infos → Step m s s'

/-- A memory without user pages, and what follows from it. -/
inductive Reach (m : Params) : Memory π → Prop
  | start (s : Memory π) : (∀ k p, s.pte k p = .zero) → (∀ f, (s.coreMap f).virtPage = none ∧ 0 ≤ (s.coreMap f).lockCount) →
      (∀ i, (s.infos i).cowList = []) → Reach m s
  | step {s s' : Memory π} : Reach m s → Step m s s' → Reach m s'

theorem cowStart_sound (hs : Sound s) (n i : Nat) :
    Sound (s.cowStart n i) ∧ (s.cowStart n i).pte = s.pte ∧
      ∀ j k, k ∈ ((s.cowStart n i).infos j).cowList → k = n ∨ k ∈ (s.infos j).cowList := by
  unfold cowStart
  split
  · exact ⟨hs, rfl, fun _ _ hk => .inr hk⟩
  · have hp : (s.setSeg n { s.segs n with cowInfoPtr := some i }).pte = s.pte := pte_recount s n _ _ _ _
    refine ⟨⟨?_, ?_⟩, hp, ?_⟩
    · change Linked (s.setSeg n { s.segs n with cowInfoPtr := some i }).pte s.coreMap
      rw [hp]
      exact hs.linked
    · intro j
      by_cases hj : j = i
      · simp [hj]
      · simp only [update_of_ne hj]
        exact hs.chains j
    · intro j k hk
      by_cases hj : j = i
      · subst hj
        simp only [update_self, mem_singleton] at hk
        exact .inl hk
      · simp only [update_of_ne hj] at hk
        exact .inr hk

theorem forkPte_sound (src : Nat) {pte : Pte} (h : pte.Sound) :
    ((forkPte src pte).1.physRes = pte.physRes ∧ (forkPte src pte).1.pageFrame = pte.pageFrame ∧
      (forkPte src pte).1.Sound) ∧ (forkPte src pte).2.1.physRes = false ∧ (forkPte src pte).2.1.Sound := by
  have hzero : Pte.zero.Sound := ⟨nofun, fun _ _ => rfl⟩
  have hcorPte : (corPte src).Sound := by
    refine ⟨fun _ => ⟨rfl, rfl, rfl⟩, ?_⟩
    simp [corPte, Pte.zero]
  unfold forkPte
  split
  · exact ⟨⟨rfl, rfl, h⟩, rfl, hzero⟩
  · split
    · exact ⟨⟨rfl, rfl, h⟩, rfl, hcorPte⟩
    next hcow =>
      split
      next hcor => exact ⟨⟨rfl, rfl, h⟩, (h.cor hcor).1, h⟩
      next hcor =>
        split
        next hres =>
          refine ⟨⟨rfl, rfl, fun hc => absurd hc hcor, ?_⟩, rfl, hcorPte⟩
          intro hr _
          have hr' : pte.physRes = false := hr
          exact h.absent hr' (.inr (by simpa [hr'] using hres))
        next hres =>
          simp only [Bool.or_eq_true, not_or, Bool.not_eq_true] at hres
          exact ⟨⟨rfl, rfl, h⟩, hres.1, h⟩

theorem forkLoop_light {src dest : Nat} (hne : src ≠ dest) (count : Nat) (page cors cows : Int) (hs : Sound s)
    (hd : ∀ p, (s.pte dest p).physRes = false) :
    Light s (forkLoop src dest count page s cors cows).1 := by
  induction count generalizing page s cors cows with
  | zero => exact Light.refl s
  | succ count ih =>
    unfold forkLoop
    obtain ⟨⟨hr, hf, hx⟩, hdr, hdx⟩ := forkPte_sound src (hs.linked.sound src page)
    generalize (if (s.segs src).type = .heap then page - (s.segs src).offset + (s.segs dest).offset else page) = q
    have h₁ : Light s (s.setPte src page (forkPte src (s.pte src page)).1) :=
      Light.setPte src page _ hr (fun _ => hf) fun _ => hx
    have hkeep : (s.setPte src page (forkPte src (s.pte src page)).1).pte dest q = s.pte dest q := by
      rw [pte_setPte, setEntry_of_ne fun h => hne h.1.symm]
    have h₂ : Light (s.setPte src page (forkPte src (s.pte src page)).1)
        ((s.setPte src page (forkPte src (s.pte src page)).1).setPte dest q (forkPte src (s.pte src page)).2.1) := by
      apply Light.setPte
      · rw [hkeep, hdr, hd q]
      · rw [hkeep, hd q]
        exact fun h => by cases h
      · exact fun _ => hdx
    have h := h₁.trans h₂
    refine h.trans (ih _ _ _ (h.sound hs) fun p => ?_)
    rw [(h.pages dest p).1]
    exact hd p

theorem vmSegFork_sound {src dest i : Nat} (hs : Sound s) (hne : src ≠ dest)
    (hd : ∀ p, (s.pte dest p).physRes = false) (hl : ∀ j, dest ∉ (s.infos j).cowList) :
    Sound (s.vmSegFork m src dest i) := by
  obtain ⟨ht, hp, hm⟩ := cowStart_sound hs src i
  unfold vmSegFork doFork
  generalize s.cowStart src i = t at ht hp hm
  dsimp only
  have hlight := forkLoop_light hne (t.segs src).numPages.toNat
    (if (t.segs src).type = .heap then (t.segs src).offset else m.lastUserStackPage - (t.segs src).numPages + 1) 0 0 ht
    (by rw [hp]; exact hd)
  generalize forkLoop src dest (t.segs src).numPages.toNat
    (if (t.segs src).type = .heap then (t.segs src).offset else m.lastUserStackPage - (t.segs src).numPages + 1) t 0 0 = r
    at hlight
  obtain ⟨u, cors, cows⟩ := r
  have hu := hlight.sound ht
  cases hi : (u.segs src).cowInfoPtr with
  | none => exact hu
  | some j =>
    dsimp only
    split
    · obtain ⟨v, hv⟩ : ∃ v, v = u.setSeg src { u.segs src with numCOWPages := (u.segs src).numCOWPages + cows } := ⟨_, rfl⟩
      have hl₁ : Light u v := hv ▸ Light.recount u src _ _ _ _
      have hl₂ := hl₁.trans (Light.recount v dest (v.segs dest).resPages (v.segs dest).numCOWPages cors (some j))
      have hw := hl₂.sound hu
      rw [← hi, ← hv]
      have hinfos : v.infos = u.infos := by rw [hv, infos_setSeg]
      refine ⟨hi ▸ hw.linked, ?_⟩
      intro k
      by_cases hk : k = j
      · subst hk
        simp only [update_self]
        refine nodup_append.2 ⟨hinfos ▸ hu.chains k, by simp, ?_⟩
        intro a ha b hb hab
        rw [mem_singleton] at hb
        subst hab hb
        rw [hinfos] at ha
        rcases hm k a ((hlight.lists k).subset ha) with h | h
        · exact hne h.symm
        · exact hl k h
      · simp only [update_of_ne hk]
        exact hinfos ▸ hu.chains k
    · exact hu

theorem step_sound (h : Step m s s') (hs : Sound s) : Sound s' := by
  cases h with
  | fork src dest i hne hd hl _ => exact vmSegFork_sound hs hne hd hl
  | cor e n page r h => exact (vmCOR_done m hs h).1
  | cow e n page _ h => exact (vmCOW_outcome m hs h).1
  | copySeg e n r h => exact (vmCOWCopySeg_outcome m hs h).1
  | deleteFromSeg e n first last _ h => exact (vmCOWDeleteFromSeg_outcome m hs h).1
  | fault s₁ n page f x hp ha hx hxf hxc =>
    apply ((pageAllocate_taken ha).fill hs hp hx hxf _).1
    exact ⟨fun hc => (by cases hxc.symm.trans hc), fun hr => by cases hr.symm.trans hx⟩
  | pageOut n page hp =>
    refine (Light.setPte n page { s.pte n page with onSwap := true } rfl (fun _ => rfl) fun hx =>
      ⟨fun hc => ?_, fun hr => ?_⟩).sound hs
    · cases (hx.cor hc).1.symm.trans hp
    · have hr' : (s.pte n page).physRes = false := hr
      cases hr'.symm.trans hp
  | free f =>
    refine ⟨?_, fun i => ?_⟩
    · simp only [pageFree, pte_setCore, pte_evict]
      have hc : ((s.evict f).setCore f ⟨none, 0⟩).coreMap = update s.coreMap f ⟨none, 0⟩ := by
        rw [setCore, coreMap_evict]
      rw [hc]
      exact hs.linked.unmap f
    · simp only [pageFree, infos_setCore, infos_evict]
      exact hs.chains i
  | clear n page x hp hx hc hw ho =>
    refine ⟨?_, hs.chains⟩
    rw [pte_setPte, coreMap_setPte]
    apply hs.linked.rewrite hp hx
    exact ⟨fun h => (by cases hc.symm.trans h), fun _ h => by simp [hw, ho] at h⟩
  | lock f => exact hs.lockPage f
  | unlock f hpos =>
    refine ⟨hs.linked.relock ?_ ?_, hs.chains⟩
    · intro g
      by_cases hg : g = f
      · subst hg
        simp [unlockPage, setCore]
      · simp [unlockPage, setCore, hg]
    · intro g hg
      by_cases hgf : g = f
      · subst hgf
        simp only [unlockPage, setCore, update_self]
        omega
      · simp only [unlockPage, setCore, update_of_ne hgf]
        exact hs.linked.locks g hg
  | other _ hp hc hi => exact (Light.of_same hp hc fun i => hi ▸ List.Sublist.refl _).sound hs

theorem reach_sound (h : Reach m s) : Sound s := by
  induction h with
  | start s hp hc hl =>
    refine ⟨⟨?_, ?_, ?_, ?_, ?_⟩, fun i => ?_⟩
    · intro f k p hf
      rw [(hc f).1] at hf
      nomatch hf
    · intro k p hr
      rw [hp] at hr
      nomatch hr
    · exact (hc 0).1
    · intro k p
      rw [hp]
      exact ⟨nofun, fun _ _ => rfl⟩
    · exact fun f _ => (hc f).2
    · rw [hl i]
      exact nodup_nil
  | step _ hst ih => exact step_sound hst ih

/-- A machine with heaps of two pages, none of them resident. -/
def params : Params := ⟨1000, 8, by decide⟩

def env : Env Unit := ⟨fun _ => 3, fun _ _ => true, fun _ _ _ => true, false⟩

def blank : Memory Unit where
  segs := fun _ =>
    { type := .heap, filePtr := none, offset := 0, numPages := 2, ptSize := 2, procList := [], ptPtr := fun _ => .zero
      resPages := 0, numCOWPages := 0, numCORPages := 0, cowInfoPtr := none }
  infos := fun _ => ⟨[], 0⟩
  coreMap := fun _ => ⟨none, 0⟩
  frames := fun _ => ()
  swap := fun _ _ => ()

def faultIn (s : Memory Unit) (n : Nat) (page : Int) (f : Nat) : Memory Unit :=
  (((s.evict f).setCore f ⟨some (n, page), 1⟩).setPTE n page
    { Pte.zero with virtRes := true, physRes := true, modified := true, pageFrame := f }).unlockPage f

/-- Both pages of a heap are faulted in and the heap is forked. The child then deletes the first. -/
def parent : Memory Unit := faultIn (faultIn blank 0 0 1) 0 1 2

def family : Memory Unit := parent.vmSegFork params 0 1 0

def shrunk : Memory Unit := ((family.vmCOWDeleteFromSeg params env 1 0 0).getD family).setPte 1 0 .zero

theorem reach_family : Reach params family := by
  have hblank : Reach params blank := .start blank (fun _ _ => rfl) (fun _ => ⟨rfl, Int.le_refl 0⟩) fun _ => rfl
  have h₁ : Reach params (faultIn blank 0 0 1) :=
    hblank.step (.fault blank ((blank.evict 1).setCore 1 ⟨some (0, 0), 1⟩) 0 0 1 _ rfl rfl rfl rfl rfl)
  have h₂ : Reach params parent :=
    h₁.step (.fault _ (((faultIn blank 0 0 1).evict 2).setCore 2 ⟨some (0, 1), 1⟩) 0 1 2 _ rfl rfl rfl rfl rfl)
  refine h₂.step (.fork parent 0 1 0 (by decide) (fun _ => rfl) (fun _ => not_mem_nil) fun k => ?_)
  match k with
  | 0 => nofun
  | _ + 1 => nofun

theorem reach_shrunk : Reach params shrunk := by
  have h : Reach params ((family.vmCOWDeleteFromSeg params env 1 0 0).getD family) :=
    reach_family.step (.deleteFromSeg family env 1 0 0 _ rfl)
  exact h.step (.clear _ 1 0 .zero rfl rfl rfl rfl rfl)

end SpriteKernel.Vm.Memory
