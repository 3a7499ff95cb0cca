import SpriteKernel.Fsutil.Handle
import SpriteKernel.Lib.Tally

/- What holds of the handle table whenever the monitor is free, and what each of the small changes
   the routines are made of does to it. -/
namespace SpriteKernel.Fsutil

open Function List

/-- The handle whose lock a process waits for with a reference of its own. -/
def Act.asks : Act → Option Nat
  | .lockWait h _ _ => some h
  | _ => none

/-- The handle that a process without a reference sleeps for, as long as it is not woken. -/
def Act.awaits : Act → Option Nat
  | .fetchWait _ h _ false | .installWait _ _ _ h false => some h
  | _ => none

/-- The references to what is at an address. -/
def refsOf (o : Option HandleHeader) : Int := (o.map HandleHeader.refCount).getD 0

def standing : Option HandleHeader → Int
  | some x => if x.removed then 0 else 1
  | none => 0

def inLimbo : Option HandleHeader → Int
  | some x => if x.removed then 1 else 0
  | none => 0

namespace Handles
variable {s t : Handles} {p q a b : Nat} {x y : HandleHeader} {l : List (Nat × Nat)}

def countRefs (l : List (Nat × Nat)) (a : Nat) : Int := (l.countP fun r => r.2 == a : Nat)

structure Inv (s : Handles) : Prop where
  table : ∀ id a, s.fileHashTable id = some a ↔
    ∃ x, s.hdr a = some x ∧ x.removed = false ∧ x.invalid = false ∧ x.fileID = id
  refs : ∀ a, countRefs s.refs a = refsOf (s.hdr a)
  lockOnce : (s.locks.map Prod.snd).Nodup
  locked : ∀ a, (∃ p, (p, a) ∈ s.locks) ↔ ∃ x, s.hdr a = some x ∧ x.locked = true
  kept : ∀ a x, s.hdr a = some x → x.removed = true → 0 < x.refCount
  backed : ∀ p a x, (p, a) ∈ s.locks → s.hdr a = some x → x.removed = true → (p, a) ∈ s.refs
  asking : ∀ p a, (s.act p).asks = some a → (p, a) ∈ s.refs
  awaiting : ∀ p a, (s.act p).awaits = some a → ∃ x, s.hdr a = some x ∧ x.removed = false
  exist : Tally.Sums (fun a => standing (s.hdr a)) s.exist
  limbo : Tally.Sums (fun a => inLimbo (s.hdr a)) s.limbo
  lruOnce : s.lruList.Nodup
  lru : ∀ a, a ∈ s.lruList ↔ ∃ x, s.hdr a = some x ∧ x.onLru = true
  lruEntries : s.lruEntries = s.lruList.length
  tame : s.wild = false

theorem countRefs_pos (h : (p, a) ∈ l) : 0 < countRefs l a := by
  have : 0 < l.countP fun r => r.2 == a := countP_pos_iff.2 ⟨(p, a), h, by simp⟩
  unfold countRefs
  omega

theorem countRefs_erase (h : (p, a) ∈ l) (b : Nat) :
    countRefs (l.erase (p, a)) b = countRefs l b - if b = a then 1 else 0 := by
  unfold countRefs
  have hperm := (perm_cons_erase h).countP_eq fun r => r.2 == b
  rw [hperm, countP_cons]
  by_cases hb : b = a
  · simp [hb]
  · simp [hb, Ne.symm hb]

theorem countRefs_append (l₁ l₂ : List (Nat × Nat)) (b : Nat) : countRefs (l₁ ++ l₂) b = countRefs l₁ b + countRefs l₂ b := by
  unfold countRefs
  rw [countP_append]
  rfl

theorem countRefs_replicate (n : Nat) (b : Nat) : countRefs (List.replicate n (p, a)) b = if b = a then (n : Int) else 0 := by
  unfold countRefs
  rw [countP_replicate]
  by_cases hb : b = a
  · simp [hb]
  · simp [hb, Ne.symm hb]

/-- Who has a reference has it to a handle that is there. -/
theorem Inv.live_of_ref (h : s.Inv) (hr : (p, a) ∈ s.refs) : ∃ x, s.hdr a = some x ∧ 0 < x.refCount := by
  have hpos := countRefs_pos hr
  rw [h.refs a] at hpos
  cases hx : s.hdr a with
  | none =>
    rw [hx] at hpos
    exact absurd hpos (Int.lt_irrefl 0)
  | some x =>
    rw [hx] at hpos
    exact ⟨x, rfl, hpos⟩

theorem Inv.live_of_lock (h : s.Inv) (hl : (p, a) ∈ s.locks) : ∃ x, s.hdr a = some x ∧ x.locked = true :=
  (h.locked a).1 ⟨p, hl⟩

theorem Inv.refCount_nonneg (h : s.Inv) (hx : s.hdr a = some x) : 0 ≤ x.refCount := by
  have hr := h.refs a
  rw [hx] at hr
  rw [show x.refCount = countRefs s.refs a from hr.symm]
  exact Int.natCast_nonneg _

theorem awaits_broadcast (h : ((s.broadcast a).act p).awaits = some b) : (s.act p).awaits = some b ∧ b ≠ a := by
  unfold broadcast at h
  dsimp only at h
  split at h
  · cases h
  · next id g install w he =>
    cases w with
    | true => cases h
    | false =>
      rw [he]
      by_cases hg : g = a
      · simp [Act.awaits, hg] at h
      · rw [show (g == a) = false by simpa using hg] at h
        cases h
        exact ⟨rfl, hg⟩
  · next id cantBlock limit g w he =>
    cases w with
    | true => cases h
    | false =>
      rw [he]
      by_cases hg : g = a
      · simp [Act.awaits, hg] at h
      · rw [show (g == a) = false by simpa using hg] at h
        cases h
        exact ⟨rfl, hg⟩
  · next b' h₁ h₂ h₃ =>
    revert h
    cases hact : s.act p with
    | fetchWait id g install w => exact absurd hact (h₂ id g install w)
    | installWait id c l g w => exact absurd hact (h₃ id c l g w)
    | _ => nofun

theorem asks_broadcast : ((s.broadcast a).act p).asks = (s.act p).asks := by
  unfold broadcast
  dsimp only
  split
  · next he => rw [he]; rfl
  · next he => rw [he]; rfl
  · next he => rw [he]; rfl
  · rfl

section
variable (h : s.Inv)
include h

theorem Inv.setAct {c : Act} (hask : ∀ b, c.asks = some b → (p, b) ∈ s.refs)
    (hwait : ∀ b, c.awaits = some b → ∃ x, s.hdr b = some x ∧ x.removed = false) : (s.setAct p c).Inv where
  table := h.table
  refs := h.refs
  lockOnce := h.lockOnce
  locked := h.locked
  kept := h.kept
  backed := h.backed
  asking q b hq := by
    obtain ⟨rfl, heq⟩ | ⟨-, hold⟩ := of_update (f := s.act) (y := (s.setAct p c).act q) rfl
    · exact hask b (heq ▸ hq)
    · exact h.asking q b (hold ▸ hq)
  awaiting q b hq := by
    obtain ⟨rfl, heq⟩ | ⟨-, hold⟩ := of_update (f := s.act) (y := (s.setAct p c).act q) rfl
    · exact hwait b (heq ▸ hq)
    · exact h.awaiting q b (hold ▸ hq)
  exist := h.exist
  limbo := h.limbo
  lruOnce := h.lruOnce
  lru := h.lru
  lruEntries := h.lruEntries
  tame := h.tame

theorem Inv.setAct_rest {c : Act} (hask : c.asks = none) (hwait : c.awaits = none) : (s.setAct p c).Inv :=
  h.setAct (fun b hb => by rw [hask] at hb; cases hb) fun b hb => by rw [hwait] at hb; cases hb

/-- One handle changes in its references and its lock, and processes are woken or not. -/
theorem Inv.touched (hx : s.hdr a = some x) (y : HandleHeader) {refs locks : List (Nat × Nat)} {act : Nat → Act}
    (hid : y.fileID = x.fileID) (hrem : y.removed = x.removed) (hinv : y.invalid = x.invalid) (hlru : y.onLru = x.onLru)
    (hrefs : ∀ b, countRefs refs b = countRefs s.refs b + if b = a then y.refCount - x.refCount else 0)
    (honce : (locks.map Prod.snd).Nodup) (hlocks : ∀ q b, b ≠ a → ((q, b) ∈ locks ↔ (q, b) ∈ s.locks))
    (hlock : (∃ q, (q, a) ∈ locks) ↔ y.locked = true) (hkept : x.removed = true → 0 < y.refCount)
    (hmore : ∀ q b, b ≠ a → (q, b) ∈ s.refs → (q, b) ∈ refs)
    (hback : ∀ q, (q, a) ∈ locks → x.removed = true → (q, a) ∈ refs)
    (hask : ∀ q b, (act q).asks = some b → (q, b) ∈ refs)
    (hwait : ∀ q b, (act q).awaits = some b → (s.act q).awaits = some b) :
    ({ s with hdr := update s.hdr a (some y), refs := refs, locks := locks, act := act } : Handles).Inv := by
  have hother : ∀ b, b ≠ a → update s.hdr a (some y) b = s.hdr b := fun b hb => update_of_ne hb _ _
  have hsame : ∀ {α : Type} (f : Option HandleHeader → α), f (some y) = f (some x) →
      ∀ b, f (update s.hdr a (some y) b) = f (s.hdr b) := fun f hf => update_same (by rw [hf, hx])
  refine ⟨fun id b => ?_, fun b => ?_, honce, fun b => ?_, fun b z hz hzrem => ?_, fun q b z hq hz hzrem => ?_, hask,
    fun q b hq => ?_, h.exist.congr (hsame standing (by simp [standing, hrem])),
    h.limbo.congr (hsame inLimbo (by simp [inLimbo, hrem])), h.lruOnce, fun b => ?_, h.lruEntries, h.tame⟩
  · refine (h.table id b).trans (iff_of_eq (hsame (fun o => ∃ z, o = some z ∧ z.removed = false ∧ z.invalid = false ∧
      z.fileID = id) ?_ b).symm)
    simp [hrem, hinv, hid]
  · dsimp only
    rw [hrefs b, h.refs b]
    by_cases hb : b = a
    · rw [hb, if_pos rfl, update_self, hx]
      exact add_sub_cancel x.refCount y.refCount
    · rw [if_neg hb, hother b hb, Int.add_zero]
  · dsimp only
    by_cases hb : b = a
    · subst hb
      simp only [update_self, hlock, Option.some.injEq, exists_eq_left']
    · rw [hother b hb, ← h.locked b]
      exact exists_congr fun q => hlocks q b hb
  · by_cases hb : b = a
    · subst hb
      cases (update_self b (some y) s.hdr).symm.trans hz
      exact hkept (hrem ▸ hzrem)
    · exact h.kept b z ((hother b hb).symm.trans hz) hzrem
  · by_cases hb : b = a
    · subst hb
      cases (update_self b (some y) s.hdr).symm.trans hz
      exact hback q hq (hrem ▸ hzrem)
    · exact hmore q b hb (h.backed q b z ((hlocks q b hb).1 hq) ((hother b hb).symm.trans hz) hzrem)
  · refine (iff_of_eq (hsame (fun o => ∃ z, o = some z ∧ z.removed = false) ?_ b)).2 (h.awaiting q b (hwait q b hq))
    simp [hrem]
  · refine (h.lru b).trans (iff_of_eq (hsame (fun o => ∃ z, o = some z ∧ z.onLru = true) ?_ b).symm)
    simp [hlru]

theorem Inv.unlocked (hx : s.hdr a = some x) (hfree : x.locked = false) (q : Nat) : (q, a) ∉ s.locks := by
  intro hq
  obtain ⟨y, hy, hlock⟩ := h.live_of_lock hq
  rw [hx] at hy
  rw [← Option.some.inj hy, hfree] at hlock
  cases hlock

/-- A lock of a handle that nobody has locked is new to the list of locks. -/
theorem nodup_locks_cons (hno : ∀ q, (q, a) ∉ s.locks) : (((p, a) :: s.locks).map Prod.snd).Nodup := by
  rw [map_cons, nodup_cons]
  refine ⟨fun hin => ?_, h.lockOnce⟩
  obtain ⟨⟨q, c⟩, hq, rfl⟩ := mem_map.1 hin
  exact hno q hq

theorem Inv.lockHandle (hx : s.hdr a = some x) (hfree : x.locked = false)
    (hback : x.removed = true → (p, a) ∈ s.refs) : (s.lockHandle p a x).Inv := by
  have hno := h.unlocked hx hfree
  refine h.touched hx { x with locked := true } rfl rfl rfl rfl (fun b => by simp [setHdr]) (nodup_locks_cons h hno)
    (fun q b hb => by simp [hb]) (iff_of_true ⟨p, mem_cons_self⟩ rfl) (h.kept a x hx) (fun _ _ _ hr => hr)
    (fun q hq hrem => ?_) h.asking fun _ _ hq => hq
  obtain heq | hin := mem_cons.1 hq
  · rw [(Prod.mk.inj heq).1]
    exact hback hrem
  · exact absurd hin (hno q)

theorem mem_locks_erase (hl : (p, a) ∈ s.locks) : (q, b) ∈ s.locks.erase (p, a) ↔ (q, b) ∈ s.locks ∧ b ≠ a := by
  have hnd : s.locks.Nodup := List.Nodup.of_map _ h.lockOnce
  rw [hnd.mem_erase_iff]
  constructor
  · rintro ⟨hne, hin⟩
    refine ⟨hin, fun hb => hne ?_⟩
    exact inj_on_of_nodup_map h.lockOnce hin hl hb
  · rintro ⟨hin, hb⟩
    exact ⟨fun heq => hb (Prod.mk.inj heq).2, hin⟩

theorem nodup_locks_erase : ((s.locks.erase (p, a)).map Prod.snd).Nodup :=
  h.lockOnce.sublist (List.Sublist.map _ erase_sublist)

section
variable (hx : s.hdr a = some x)
include hx

theorem Inv.unlockHandle (hl : (p, a) ∈ s.locks) : (s.unlockHandle p a x).Inv := by
  refine h.touched hx { x with locked := false } rfl rfl rfl rfl (fun b => by simp [setHdr]) (nodup_locks_erase h)
    (fun q b hb => (mem_locks_erase h hl).trans (and_iff_left hb)) (iff_of_false ?_ nofun) (h.kept a x hx) (fun _ _ _ hr => hr)
    (fun q hq _ => absurd rfl ((mem_locks_erase h hl).1 hq).2) (fun q b hq => h.asking q b (asks_broadcast.symm.trans hq))
    fun q b hq => (awaits_broadcast hq).1
  rintro ⟨q, hq⟩
  exact ((mem_locks_erase h hl).1 hq).2 rfl

theorem Inv.addRefs (n : Nat) : (s.addRefs p a x n).Inv := by
  have hmore : ∀ r, r ∈ s.refs → r ∈ List.replicate n (p, a) ++ s.refs := fun r hr => mem_append_right _ hr
  refine h.touched hx { x with refCount := x.refCount + n } rfl rfl rfl rfl (fun b => ?_) h.lockOnce (fun _ _ _ => Iff.rfl)
    ((h.locked a).trans (by simp [hx])) (fun hrem => ?_) (fun q b _ => hmore (q, b))
    (fun q hq hrem => hmore _ (h.backed q a x hq hx hrem)) (fun q b hq => hmore _ (h.asking q b hq)) fun _ _ hq => hq
  · rw [countRefs_append, countRefs_replicate, Int.add_comm, add_sub_cancel_left]
  · have := h.kept a x hx hrem
    show 0 < x.refCount + n
    omega

/-- A reference is dropped that nothing goes by, and not the last one of a removed handle. -/
theorem Inv.dropRef (hr : (p, a) ∈ s.refs)
    (hmore : x.removed = true → 1 < x.refCount)
    (hback : (p, a) ∈ s.locks → x.removed = true → (p, a) ∈ s.refs.erase (p, a))
    (hask : (s.act p).asks = none) : (s.dropRef p a x).Inv := by
  have hkeep : ∀ q b, (q, b) ∈ s.refs → (q, b) ≠ (p, a) → (q, b) ∈ s.refs.erase (p, a) :=
    fun q b hin hne => (mem_erase_of_ne hne).2 hin
  refine h.touched hx { x with refCount := x.refCount - 1 } rfl rfl rfl rfl (fun b => ?_) h.lockOnce (fun _ _ _ => Iff.rfl)
    ((h.locked a).trans (by simp [hx])) (fun hrem => Int.sub_pos.2 (hmore hrem))
    (fun q b hb hin => hkeep q b hin fun heq => hb (Prod.mk.inj heq).2) (fun q hq hrem => ?_) (fun q b hq => ?_)
    fun _ _ hq => hq
  · rw [countRefs_erase hr]
    split
    · show _ - 1 = _ + (x.refCount - 1 - x.refCount)
      omega
    · rw [Int.sub_zero, Int.add_zero]
  · by_cases hqp : q = p
    · subst hqp
      exact hback hq hrem
    · exact hkeep q a (h.backed q a x hq hx hrem) fun heq => hqp (Prod.mk.inj heq).1
  · refine hkeep q b (h.asking q b hq) fun heq => ?_
    obtain ⟨rfl, -⟩ := Prod.mk.inj heq
    cases hask.symm.trans hq

theorem Inv.moveHandle : (s.moveHandle a x).Inv := by
  unfold Handles.moveHandle
  split
  · next hon =>
    have hin : a ∈ s.lruList := (h.lru a).2 ⟨x, hx, hon⟩
    have hperm : List.Perm (s.lruList.erase a ++ [a]) s.lruList :=
      (perm_append_singleton a _).trans (perm_cons_erase hin).symm
    exact ⟨h.table, h.refs, h.lockOnce, h.locked, h.kept, h.backed, h.asking, h.awaiting, h.exist, h.limbo,
      hperm.nodup_iff.2 h.lruOnce, fun b => hperm.mem_iff.trans (h.lru b), h.lruEntries.trans (by rw [hperm.length_eq]), h.tame⟩
  · exact h

end

end

@[simp] theorem hdr_moveHandle : (s.moveHandle a x).hdr = s.hdr := by
  unfold Handles.moveHandle
  split <;> rfl

theorem Inv.takeHandle (h : s.Inv) (hx : s.hdr a = some x) (hfree : x.locked = false) : (s.takeHandle p a x).Inv := by
  have hmove : (s.moveHandle a x).hdr a = some x := by rw [hdr_moveHandle, hx]
  refine ((h.moveHandle hx).addRefs hmove 1).lockHandle (update_self _ _ _) hfree fun _ => ?_
  exact mem_append_left _ (mem_singleton.2 rfl)

/-- Without the handle at an address nobody has a reference to it, or its lock. -/
theorem Inv.nobody (h : s.Inv) (hx : s.hdr a = none) : (∀ q, (q, a) ∉ s.refs) ∧ (∀ q, (q, a) ∉ s.locks) ∧ a ∉ s.lruList := by
  refine ⟨fun q hq => ?_, fun q hq => ?_, fun hin => ?_⟩
  · obtain ⟨y, hy, -⟩ := h.live_of_ref hq
    rw [hx] at hy
    cases hy
  · obtain ⟨y, hy, -⟩ := h.live_of_lock hq
    rw [hx] at hy
    cases hy
  · obtain ⟨y, hy, -⟩ := (h.lru a).1 hin
    rw [hx] at hy
    cases hy

theorem Inv.newHandle {P : HandleParams} {id : FileId} (h : s.Inv) (hx : s.hdr a = none) (hid : s.fileHashTable id = none) :
    (s.newHandle P p id a).Inv := by
  have hself : (s.newHandle P p id a).hdr a = some ⟨id, true, false, false, 1, P.scavenge id.type⟩ := update_self _ _ _
  have hother : ∀ b, b ≠ a → (s.newHandle P p id a).hdr b = s.hdr b := fun b hb => update_of_ne hb _ _
  obtain ⟨hnoref, hnolock, hnolru⟩ := h.nobody hx
  refine ⟨fun id' b => ?_, fun b => ?_, ?_, fun b => ?_, fun b y hy hrem => ?_, fun q b y hq hy hrem => ?_, fun q b hq => ?_,
    fun q b hq => ?_, ?_, ?_, ?_, fun b => ?_, ?_, h.tame⟩
  · show update s.fileHashTable id (some a) id' = some b ↔ _
    by_cases hi : id' = id
    · subst hi
      rw [update_self]
      constructor
      · intro hb
        cases hb
        exact ⟨_, hself, rfl, rfl, rfl⟩
      · rintro ⟨z, hz, hrem, hinv, hzid⟩
        obtain ⟨rfl, -⟩ | ⟨-, hz⟩ := of_update_some hz
        · rfl
        · cases hid.symm.trans ((h.table id' b).2 ⟨z, hz, hrem, hinv, hzid⟩)
    · rw [update_of_ne hi, h.table id' b]
      by_cases hb : b = a
      · subst hb
        rw [hself, hx]
        simpa using Ne.symm hi
      · rw [hother b hb]
  · show countRefs ((p, a) :: s.refs) b = _
    rw [show (p, a) :: s.refs = List.replicate 1 (p, a) ++ s.refs from rfl, countRefs_append, countRefs_replicate, h.refs b]
    by_cases hb : b = a
    · subst hb
      rw [hself, hx, if_pos rfl]
      rfl
    · rw [hother b hb, if_neg hb, Int.zero_add]
  · exact nodup_locks_cons h hnolock
  · show (∃ q, (q, b) ∈ (p, a) :: s.locks) ↔ _
    by_cases hb : b = a
    · subst hb
      exact iff_of_true ⟨p, mem_cons_self⟩ ⟨_, hself, rfl⟩
    · rw [hother b hb, ← h.locked b]
      simp [hb]
  · obtain ⟨rfl, rfl⟩ | ⟨-, hy⟩ := of_update_some hy
    · cases hrem
    · exact h.kept b y hy hrem
  · obtain ⟨rfl, rfl⟩ | ⟨hb, hy⟩ := of_update_some hy
    · cases hrem
    · obtain heq | hin := mem_cons.1 hq
      · exact absurd (Prod.mk.inj heq).2 hb
      · exact mem_cons_of_mem _ (h.backed q b y hin hy hrem)
  · exact mem_cons_of_mem _ (h.asking q b hq)
  · obtain ⟨z, hz, hrem⟩ := h.awaiting q b hq
    have hb : b ≠ a := by
      rintro rfl
      rw [hx] at hz
      cases hz
    exact ⟨z, (hother b hb).trans hz, hrem⟩
  · have hsum := h.exist.change a (g := fun b => standing ((s.newHandle P p id a).hdr b)) fun b hb => by rw [hother b hb]
    rw [hself, hx] at hsum
    exact hsum
  · have hsum := h.limbo.change a (g := fun b => inLimbo ((s.newHandle P p id a).hdr b)) fun b hb => by rw [hother b hb]
    rw [hself, hx] at hsum
    have hzero : s.limbo + (inLimbo (some ⟨id, true, false, false, 1, P.scavenge id.type⟩) - inLimbo none) = s.limbo := by
      simp [inLimbo]
    rw [hzero] at hsum
    exact hsum
  · show (if P.scavenge id.type then s.lruList ++ [a] else s.lruList).Nodup
    split
    · exact (perm_append_singleton a _).nodup_iff.2 (nodup_cons.2 ⟨hnolru, h.lruOnce⟩)
    · exact h.lruOnce
  · show b ∈ (if P.scavenge id.type then s.lruList ++ [a] else s.lruList) ↔ _
    by_cases hb : b = a
    · subst hb
      rw [hself]
      split
      · next hon => simp [hon]
      · next hoff => simp [hoff, hnolru]
    · rw [hother b hb, ← h.lru b]
      split
      · simp [hb]
      · rfl
  · show (if P.scavenge id.type then s.lruEntries + 1 else s.lruEntries) =
      ((if P.scavenge id.type then s.lruList ++ [a] else s.lruList).length : Int)
    split
    · rw [length_append, h.lruEntries]
      rfl
    · exact h.lruEntries

/-- A handle that is not locked goes out of the hash table, unless it was invalid. -/
def unlist (s : Handles) (x : HandleHeader) : FileId → Option Nat :=
  if x.invalid then s.fileHashTable else update s.fileHashTable x.fileID none

theorem table_unlist (h : s.Inv) (hx : s.hdr a = some x) (hrem : x.removed = false) (id : FileId) (b : Nat) :
    s.unlist x id = some b ↔ b ≠ a ∧ ∃ z, s.hdr b = some z ∧ z.removed = false ∧ z.invalid = false ∧ z.fileID = id := by
  unfold unlist
  rw [← h.table id b]
  split
  · next hinv =>
    refine ⟨fun hb => ⟨?_, hb⟩, And.right⟩
    rintro rfl
    obtain ⟨z, hz, -, hzinv, -⟩ := (h.table id b).1 hb
    rw [hx] at hz
    rw [← Option.some.inj hz, hinv] at hzinv
    cases hzinv
  · next hinv =>
    have hmine : s.fileHashTable x.fileID = some a := (h.table x.fileID a).2 ⟨x, hx, hrem, by simpa using hinv, rfl⟩
    by_cases hi : id = x.fileID
    · subst hi
      rw [update_self, hmine]
      refine iff_of_false nofun ?_
      rintro ⟨hne, heq⟩
      exact hne (Option.some.inj heq).symm
    · rw [update_of_ne hi]
      refine ⟨fun hb => ⟨?_, hb⟩, And.right⟩
      rintro rfl
      obtain ⟨z, hz, -, -, hzid⟩ := (h.table id b).1 hb
      rw [hx] at hz
      exact hi (hzid.symm.trans (by rw [Option.some.inj hz]))

/-- A handle with references is removed; nobody sleeps for it without one. -/
theorem Inv.retire (h : s.Inv) (hx : s.hdr a = some x) (hfree : x.locked = false) (hrem : x.removed = false)
    (hpos : 0 < x.refCount) (hno : ∀ q, (s.act q).awaits ≠ some a) :
    ({ s.setHdr a (some { x with removed := true }) with
        fileHashTable := s.unlist x, exist := s.exist - 1, limbo := s.limbo + 1 } : Handles).Inv := by
  have hself : (s.setHdr a (some { x with removed := true })).hdr a = some { x with removed := true } := update_self _ _ _
  have hother : ∀ b, b ≠ a → (s.setHdr a (some { x with removed := true })).hdr b = s.hdr b :=
    fun b hb => update_of_ne hb _ _
  have hnolock := h.unlocked hx hfree
  refine ⟨fun id b => ?_, fun b => ?_, h.lockOnce, fun b => ?_, fun b y hy hyrem => ?_, fun q b y hq hy hyrem => ?_, h.asking,
    fun q b hq => ?_, ?_, ?_, h.lruOnce, fun b => ?_, h.lruEntries, h.tame⟩
  · refine (table_unlist h hx hrem id b).trans ?_
    by_cases hb : b = a
    · subst hb
      rw [hself]
      simp
    · show _ ↔ ∃ z, (s.setHdr a (some { x with removed := true })).hdr b = some z ∧ _
      rw [hother b hb]
      exact and_iff_right hb
  · exact (h.refs b).trans (update_same (g := refsOf) (by rw [hx]; rfl) b).symm
  · exact (h.locked b).trans (iff_of_eq (update_same (g := fun o : Option HandleHeader => ∃ z, o = some z ∧ z.locked = true) (by simp [hx]) b).symm)
  · obtain ⟨rfl, rfl⟩ | ⟨-, hy⟩ := of_update_some hy
    · exact hpos
    · exact h.kept b y hy hyrem
  · obtain ⟨rfl, -⟩ | ⟨-, hy⟩ := of_update_some hy
    · exact absurd hq (hnolock q)
    · exact h.backed q b y hq hy hyrem
  · obtain ⟨z, hz, hzrem⟩ := h.awaiting q b hq
    have hb : b ≠ a := by
      rintro rfl
      exact hno q hq
    exact ⟨z, (hother b hb).trans hz, hzrem⟩
  · have hsum := h.exist.change a (g := fun b => standing ((s.setHdr a (some { x with removed := true })).hdr b))
      fun b hb => by rw [hother b hb]
    rw [hself, hx] at hsum
    have hval : standing (some { x with removed := true }) - standing (some x) = -1 := by simp [standing, hrem]
    rw [hval] at hsum
    exact hsum
  · have hsum := h.limbo.change a (g := fun b => inLimbo ((s.setHdr a (some { x with removed := true })).hdr b))
      fun b hb => by rw [hother b hb]
    rw [hself, hx] at hsum
    have hval : inLimbo (some { x with removed := true }) - inLimbo (some x) = 1 := by simp [inLimbo, hrem]
    rw [hval] at hsum
    exact hsum
  · exact (h.lru b).trans (iff_of_eq (update_same (g := fun o : Option HandleHeader => ∃ z, o = some z ∧ z.onLru = true) (by simp [hx]) b).symm)

theorem hdr_removeHandle (b : Nat) : (s.removeHandle a x).hdr b = if b = a then none else s.hdr b := by
  unfold Handles.removeHandle
  split <;> exact update_apply _ _ _ _

section
variable (h : s.Inv)
include h

section
variable (hx : s.hdr a = some x)
include hx

theorem lru_removeHandle :
    (s.removeHandle a x).lruList.Nodup ∧
      (∀ b, b ∈ (s.removeHandle a x).lruList ↔ ∃ z, (s.removeHandle a x).hdr b = some z ∧ z.onLru = true) ∧
      (s.removeHandle a x).lruEntries = (s.removeHandle a x).lruList.length := by
  have hhdr := fun b => hdr_removeHandle (s := s) (a := a) (x := x) b
  unfold Handles.removeHandle at hhdr ⊢
  split at hhdr
  · next hon =>
    rw [if_pos hon]
    refine ⟨h.lruOnce.erase a, fun b => ?_, ?_⟩
    · rw [hhdr b]
      show b ∈ s.lruList.erase a ↔ _
      rw [h.lruOnce.mem_erase_iff, h.lru b]
      by_cases hb : b = a
      · simp [hb]
      · simp [hb]
    · have hin : a ∈ s.lruList := (h.lru a).2 ⟨x, hx, hon⟩
      show s.lruEntries - 1 = ((s.lruList.erase a).length : Int)
      have hlen := (perm_cons_erase hin).length_eq
      rw [length_cons] at hlen
      rw [h.lruEntries, hlen]
      omega
  · next hoff =>
    rw [if_neg hoff]
    refine ⟨h.lruOnce, fun b => ?_, h.lruEntries⟩
    rw [hhdr b]
    refine (h.lru b).trans ?_
    by_cases hb : b = a
    · subst hb
      rw [if_pos rfl, hx]
      simp [hoff]
    · rw [if_neg hb]

/-- The memory of a handle is freed that nobody has a reference to, locks or waits for any more. -/
theorem Inv.freed (hhdr : t.hdr = (s.removeHandle a x).hdr)
    (hlist : t.lruList = (s.removeHandle a x).lruList) (hent : t.lruEntries = (s.removeHandle a x).lruEntries)
    (hact : t.act = s.act) (hwild : t.wild = s.wild)
    (htable : ∀ id b, t.fileHashTable id = some b ↔ b ≠ a ∧ s.fileHashTable id = some b)
    (hrefs : ∀ q b, (q, b) ∈ t.refs ↔ b ≠ a ∧ (q, b) ∈ s.refs)
    (hcount : ∀ b, countRefs t.refs b = if b = a then 0 else countRefs s.refs b)
    (hlocks : ∀ q b, (q, b) ∈ t.locks ↔ b ≠ a ∧ (q, b) ∈ s.locks) (honce : (t.locks.map Prod.snd).Nodup)
    (hask : ∀ q, (s.act q).asks ≠ some a) (hno : ∀ q, (s.act q).awaits ≠ some a)
    (hexist : t.exist = s.exist - standing (some x)) (hlimbo : t.limbo = s.limbo - inLimbo (some x)) : t.Inv := by
  have hself : t.hdr a = none := by rw [hhdr, hdr_removeHandle, if_pos rfl]
  have hother : ∀ b, b ≠ a → t.hdr b = s.hdr b := fun b hb => by rw [hhdr, hdr_removeHandle, if_neg hb]
  obtain ⟨hnd, hmem, hlen⟩ := lru_removeHandle h hx
  refine ⟨fun id b => ?_, fun b => ?_, honce, fun b => ?_, fun b y hy hyrem => ?_, fun q b y hq hy hyrem => ?_,
    fun q b hq => ?_, fun q b hq => ?_, ?_, ?_, hlist ▸ hnd, fun b => ?_, ?_, hwild ▸ h.tame⟩
  · rw [htable id b, h.table id b]
    by_cases hb : b = a
    · subst hb
      rw [hself]
      simp
    · rw [hother b hb]
      exact and_iff_right hb
  · rw [hcount b]
    by_cases hb : b = a
    · subst hb
      rw [hself, if_pos rfl]
      rfl
    · rw [hother b hb, if_neg hb]
      exact h.refs b
  · simp only [hlocks]
    by_cases hb : b = a
    · subst hb
      rw [hself]
      simp
    · rw [hother b hb, ← h.locked b]
      simp [hb]
  · by_cases hb : b = a
    · subst hb
      rw [hself] at hy
      cases hy
    · exact h.kept b y ((hother b hb).symm.trans hy) hyrem
  · obtain ⟨hb, hin⟩ := (hlocks q b).1 hq
    exact (hrefs q b).2 ⟨hb, h.backed q b y hin ((hother b hb).symm.trans hy) hyrem⟩
  · rw [hact] at hq
    refine (hrefs q b).2 ⟨?_, h.asking q b hq⟩
    rintro rfl
    exact hask q hq
  · rw [hact] at hq
    have hb : b ≠ a := by
      rintro rfl
      exact hno q hq
    rw [hother b hb]
    exact h.awaiting q b hq
  · have hsum := h.exist.change a (g := fun b => standing (t.hdr b)) fun b hb => by rw [hother b hb]
    rw [hself, hx] at hsum
    rw [hexist]
    simpa [standing, sub_eq_add_neg] using hsum
  · have hsum := h.limbo.change a (g := fun b => inLimbo (t.hdr b)) fun b hb => by rw [hother b hb]
    rw [hself, hx] at hsum
    rw [hlimbo]
    simpa [inLimbo, sub_eq_add_neg] using hsum
  · rw [hlist, hhdr]
    exact hmem b
  · rw [hent, hlist]
    exact hlen

theorem Inv.discard (hfree : x.locked = false) (hrem : x.removed = false)
    (hzero : x.refCount = 0) (hno : ∀ q, (s.act q).awaits ≠ some a) :
    ({ s.removeHandle a x with fileHashTable := s.unlist x, exist := s.exist - 1 } : Handles).Inv := by
  have hkeep : (s.removeHandle a x).refs = s.refs ∧ (s.removeHandle a x).locks = s.locks ∧
      (s.removeHandle a x).act = s.act ∧ (s.removeHandle a x).wild = s.wild ∧ (s.removeHandle a x).limbo = s.limbo := by
    unfold Handles.removeHandle
    split <;> exact ⟨rfl, rfl, rfl, rfl, rfl⟩
  obtain ⟨hr, hl, hact, hwild, hlimbo⟩ := hkeep
  have hcount : countRefs s.refs a = 0 := by rw [h.refs a, hx]; exact hzero
  have hnoref : ∀ q, (q, a) ∉ s.refs := by
    intro q hq
    have := countRefs_pos hq
    omega
  have hnolock := h.unlocked hx hfree
  refine h.freed hx rfl rfl rfl hact hwild (fun id b => ?_) (fun q b => ?_) (fun b => ?_) (fun q b => ?_) ?_
    (fun q hq => hnoref q (h.asking q a hq)) hno (by simp [standing, hrem]) ?_
  · refine (table_unlist h hx hrem id b).trans ?_
    rw [h.table id b]
  · rw [hr]
    refine ⟨fun hin => ⟨?_, hin⟩, And.right⟩
    rintro rfl
    exact hnoref q hin
  · rw [hr]
    split
    · next hb => rw [hb, hcount]
    · rfl
  · rw [hl]
    refine ⟨fun hin => ⟨?_, hin⟩, And.right⟩
    rintro rfl
    exact hnolock q hin
  · rw [hl]
    exact h.lockOnce
  · rw [hlimbo]
    simp [inLimbo, hrem]

theorem Inv.sole (hone : x.refCount = 1) (hp : (p, a) ∈ s.refs) (hq : (q, a) ∈ s.refs) :
    q = p := by
  by_contra hne
  have hin : (q, a) ∈ s.refs.erase (p, a) := (mem_erase_of_ne fun heq => hne (Prod.mk.inj heq).1).2 hq
  have hpos := countRefs_pos hin
  have hcount := h.refs a
  rw [hx] at hcount
  rw [countRefs_erase hp, if_pos rfl, hcount, show refsOf (some x) = x.refCount from rfl, hone] at hpos
  exact absurd hpos (Int.lt_irrefl 0)

/-- The last reference to a removed handle goes away, and the memory with it. -/
theorem Inv.freeLast (hrem : x.removed = true) (hone : x.refCount = 1)
    (hr : (p, a) ∈ s.refs) {locked : Bool} (hl : locked = true ↔ (p, a) ∈ s.locks) (hask : (s.act p).asks = none) :
    ({ (s.dropRef p a x).removeHandle a { x with refCount := x.refCount - 1 } with
        limbo := s.limbo - 1, locks := if locked then s.locks.erase (p, a) else s.locks } : Handles).Inv := by
  obtain ⟨y, hy⟩ : ∃ y, y = { x with refCount := x.refCount - 1 } := ⟨_, rfl⟩
  obtain ⟨u, hu⟩ : ∃ u, u = (s.dropRef p a x).removeHandle a y := ⟨_, rfl⟩
  have hkeep : u.hdr = (s.removeHandle a x).hdr ∧ u.lruList = (s.removeHandle a x).lruList ∧
      u.lruEntries = (s.removeHandle a x).lruEntries ∧ u.act = s.act ∧ u.wild = s.wild ∧ u.refs = s.refs.erase (p, a) ∧
      u.exist = s.exist ∧ u.fileHashTable = s.fileHashTable := by
    have hclear : update (update s.hdr a (some { x with refCount := x.refCount - 1 })) a none =
        update s.hdr a none :=
      Function.update_idem _ _ _
    rw [hu]
    unfold Handles.removeHandle
    rw [show y.onLru = x.onLru by rw [hy]]
    split
    · exact ⟨hclear, rfl, rfl, rfl, rfl, rfl, rfl, rfl⟩
    · exact ⟨hclear, rfl, rfl, rfl, rfl, rfl, rfl, rfl⟩
  obtain ⟨hhdr, hlist, hent, hact, hwild, hrefs, hexist, htab⟩ := hkeep
  have hsole : ∀ q, (q, a) ∈ s.refs → q = p := fun q hq => h.sole hx hone hr hq
  have hcount : countRefs s.refs a = 1 := by rw [h.refs a, hx]; exact hone
  have hgone : ∀ q, (q, a) ∉ s.refs.erase (p, a) := by
    intro q hq
    have hpos := countRefs_pos hq
    rw [countRefs_erase hr, if_pos rfl, hcount] at hpos
    exact absurd hpos (Int.lt_irrefl 0)
  have hlocker : ∀ q, (q, a) ∈ s.locks → q = p := fun q hq => hsole q (h.backed q a x hq hx hrem)
  rw [← hy, ← hu]
  refine h.freed hx hhdr hlist hent hact hwild (fun id b => ?_) (fun q b => ?_) (fun b => ?_) (fun q b => ?_) ?_
    (fun q hq => ?_) (fun q hq => ?_) ?_ (by simp [inLimbo, hrem])
  · show u.fileHashTable id = some b ↔ _
    rw [htab]
    refine ⟨fun hin => ⟨?_, hin⟩, And.right⟩
    rintro rfl
    obtain ⟨z, hz, hzrem, -⟩ := (h.table id b).1 hin
    rw [hx] at hz
    rw [← Option.some.inj hz, hrem] at hzrem
    cases hzrem
  · show (q, b) ∈ u.refs ↔ _
    rw [hrefs]
    refine ⟨fun hin => ⟨?_, mem_of_mem_erase hin⟩, fun ⟨hb, hin⟩ => ?_⟩
    · rintro rfl
      exact hgone q hin
    · exact (mem_erase_of_ne fun heq => hb (Prod.mk.inj heq).2).2 hin
  · show countRefs u.refs b = _
    rw [hrefs, countRefs_erase hr]
    split
    · next hb =>
      rw [hb, hcount]
      rfl
    · exact Int.sub_zero _
  · show (q, b) ∈ (if locked then s.locks.erase (p, a) else s.locks) ↔ _
    split
    · next hlocked =>
      rw [mem_locks_erase h (hl.1 hlocked)]
      exact and_comm
    · next hfree =>
      refine ⟨fun hin => ⟨?_, hin⟩, And.right⟩
      rintro rfl
      exact hfree (hl.2 (hlocker q hin ▸ hin))
  · show ((if locked then s.locks.erase (p, a) else s.locks).map Prod.snd).Nodup
    split
    · exact nodup_locks_erase h
    · exact h.lockOnce
  · have hqp := hsole q (h.asking q a hq)
    rw [hqp, hask] at hq
    cases hq
  · obtain ⟨z, hz, hzrem⟩ := h.awaiting q a hq
    rw [hx] at hz
    rw [← Option.some.inj hz, hrem] at hzrem
    cases hzrem
  · show u.exist = _
    rw [hexist]
    simp [standing, hrem]

theorem Inv.invalidate (hrem : x.removed = false) (hinv : x.invalid = false) (id : FileId) :
    ({ s with
        hdr := update s.hdr a (some { x with invalid := true, fileID := id })
        fileHashTable := update s.fileHashTable x.fileID none } : Handles).Inv := by
  obtain ⟨t, ht⟩ : ∃ t : Handles, t = { s with
      hdr := update s.hdr a (some { x with invalid := true, fileID := id })
      fileHashTable := update s.fileHashTable x.fileID none } := ⟨_, rfl⟩
  have hself : t.hdr a = some { x with invalid := true, fileID := id } := by
    rw [ht]
    exact update_self _ _ _
  have hother : ∀ b, b ≠ a → t.hdr b = s.hdr b := by
    intro b hb
    rw [ht]
    exact update_of_ne hb _ _
  have htab : t.fileHashTable = s.unlist x := by
    rw [ht]
    unfold unlist
    rw [hinv]
    rfl
  have hsame : t.locks = s.locks ∧ t.refs = s.refs ∧ t.act = s.act ∧ t.lruList = s.lruList ∧ t.lruEntries = s.lruEntries ∧
      t.wild = s.wild ∧ t.exist = s.exist ∧ t.limbo = s.limbo := by
    rw [ht]
    exact ⟨rfl, rfl, rfl, rfl, rfl, rfl, rfl, rfl⟩
  obtain ⟨hlocks, hrefs, hact, hlist, hent, hwild, hexist, hlimbo⟩ := hsame
  rw [← ht]
  refine ⟨fun id' b => ?_, fun b => ?_, hlocks ▸ h.lockOnce, fun b => ?_, fun b y hy hyrem => ?_, fun q b y hq hy hyrem => ?_,
    fun q b hq => ?_, fun q b hq => ?_, ?_, ?_, hlist ▸ h.lruOnce, fun b => ?_, ?_, hwild ▸ h.tame⟩
  · rw [htab, table_unlist h hx hrem id' b]
    by_cases hb : b = a
    · subst hb
      rw [hself]
      simp
    · rw [hother b hb]
      exact and_iff_right hb
  · rw [hrefs, h.refs b]
    by_cases hb : b = a
    · subst hb
      rw [hself, hx]
      rfl
    · rw [hother b hb]
  · rw [hlocks, h.locked b]
    by_cases hb : b = a
    · subst hb
      rw [hself, hx]
      simp
    · rw [hother b hb]
  · by_cases hb : b = a
    · subst hb
      rw [hself] at hy
      cases hy
      exact h.kept b x hx hyrem
    · exact h.kept b y ((hother b hb).symm.trans hy) hyrem
  · rw [hlocks] at hq
    rw [hrefs]
    by_cases hb : b = a
    · subst hb
      rw [hself] at hy
      cases hy
      exact h.backed q b x hq hx hyrem
    · exact h.backed q b y hq ((hother b hb).symm.trans hy) hyrem
  · rw [hact] at hq
    rw [hrefs]
    exact h.asking q b hq
  · rw [hact] at hq
    obtain ⟨z, hz, hzrem⟩ := h.awaiting q b hq
    by_cases hb : b = a
    · subst hb
      exact ⟨_, hself, hrem⟩
    · exact ⟨z, (hother b hb).trans hz, hzrem⟩
  · rw [hexist]
    refine h.exist.congr fun b => ?_
    by_cases hb : b = a
    · subst hb
      rw [hself, hx]
      rfl
    · rw [hother b hb]
  · rw [hlimbo]
    refine h.limbo.congr fun b => ?_
    by_cases hb : b = a
    · subst hb
      rw [hself, hx]
      rfl
    · rw [hother b hb]
  · rw [hlist, h.lru b]
    by_cases hb : b = a
    · subst hb
      rw [hself, hx]
      simp
    · rw [hother b hb]
  · rw [hent, hlist]
    exact h.lruEntries

end

end

end Handles
end SpriteKernel.Fsutil
