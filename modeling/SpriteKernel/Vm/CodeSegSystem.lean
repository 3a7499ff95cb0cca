import SpriteKernel.Vm.CodeSegLink

/- Runs of the segment table: execs and exits in any order. As long as nobody sleeps for a file when its segment is
   set up, and none is looked up while it is deleted, files and code segments go one to one and every process that
   waits has one to wait for. -/
namespace SpriteKernel.Vm
open Function (update update_eq_self update_idem update_of_ne update_self)

open List
namespace SegTable
open Custody Transition
variable {P : SegParams} {s t : SegTable} {n p : Nat} {l : SegStep}

/-- A process looks for a segment with no set-up under way; Vm_InitCode ends one, of a segment its caller made and
    shares; what is deleted or forked is shared. -/
def Promised (P : SegParams) (s : SegTable) : SegStep → Prop
  | .findCode p _ => s.setup p = none
  | .initCode p f seg => s.setup p = some (P.getFileHandle f) ∧ ∀ n, seg = some n →
      (0 < n ∧ n < P.numSegments) ∧ p ∈ (s.seg n).procList ∧ (s.seg n).fileHandle = none
  | .segmentDelete _ n => 0 < n ∧ n < P.numSegments
  | .segmentIncRef _ n => (0 < n ∧ n < P.numSegments) ∧ (s.seg n).procList ≠ []
  | .again _ | .segmentNew _ _ _ | .drained _ | .cleanSegment _ | .newAgain _ | .putOnFree _
  | .incPTUserCount _ | .decPTUserCount _ | .spoil _ | .fileChanged _ | .noSticky _ => True

/-- No process has in hand the segment that a file points back to. -/
def Untouched (s : SegTable) (h : Nat) : Prop := ∀ n, s.segPtr h = .seg n → ∀ q, n ∉ (s.act q).hand

/-- Nobody sleeps for a file whose segment is set up, none is looked up while deleted, and code is sticky. -/
def Undisturbed (P : SegParams) (s : SegTable) : SegStep → Prop
  | .findCode _ f => s.Untouched (P.getFileHandle f)
  | .again p => ∀ f w, s.act p = .sleeping f w → s.Untouched (P.getFileHandle f)
  | .initCode _ f seg => seg ≠ none → ∀ q f', s.act q = .sleeping f' false → P.getFileHandle f' ≠ P.getFileHandle f
  | .fileChanged h => s.Untouched h
  | .noSticky b => b = false
  | .segmentNew _ _ _ | .segmentDelete _ _ | .drained _ | .cleanSegment _ | .newAgain _ | .putOnFree _
  | .segmentIncRef _ _ | .incPTUserCount _ | .decPTUserCount _ | .spoil _ => True

def Met (P : SegParams) (s : SegTable) (l : SegStep) : Prop := s.Promised P l ∧ s.Undisturbed P l

structure Orderly (P : SegParams) (s : SegTable) : Prop where
  placed : s.Placed P
  linked : s.Linked P

theorem Orderly.setSeg (h : s.Orderly P) {e : SegEntry} (h₁ : e.procList = (s.seg n).procList)
    (h₂ : e.refCount = (s.seg n).refCount) (h₃ : e.inactive = (s.seg n).inactive)
    (h₄ : e.fileHandle = (s.seg n).fileHandle) : (s.setSeg n e).Orderly P := by
  refine ⟨h.placed.frame rfl fun m => ?_, h.linked.setSeg h₄⟩
  by_cases hm : m = n
  · subst hm
    rw [show (s.setSeg m e).seg m = e from update_self _ _ _]
    exact ⟨h₁, h₂, h₃⟩
  · rw [show (s.setSeg n e).seg m = s.seg m from update_of_ne hm _ _]
    exact ⟨rfl, rfl, rfl⟩

theorem kept_broadcast (u : SegTable) : u.broadcast.kept = u.kept := by
  funext q
  cases q with
  | on l => rfl
  | hand q =>
    show (u.broadcast.act q).hand = (u.act q).hand
    unfold broadcast
    dsimp only
    cases u.act q <;> rfl

theorem Placed.initCode (h : s.Placed P) (filePtr : Nat) (segPtr : Option Nat) : (s.initCode P p filePtr segPtr).Placed P := by
  cases segPtr with
  | none => exact h.frame (kept_broadcast _) fun _ => ⟨rfl, rfl, rfl⟩
  | some n =>
    refine h.frame rfl fun m => ?_
    by_cases hm : m = n
    · subst hm
      rw [show (s.initCode P p filePtr (some m)).seg m = { s.seg m with fileHandle := some (P.getFileHandle filePtr) } from
        update_self _ _ _]
      exact ⟨rfl, rfl, rfl⟩
    · rw [show (s.initCode P p filePtr (some n)).seg m = s.seg m from update_of_ne hm _ _]
      exact ⟨rfl, rfl, rfl⟩

theorem Orderly.findCode (h : s.Orderly P) {filePtr : Nat} (hp : (s.act p).hand = []) (hset : s.setup p = none)
    (hu : s.Untouched (P.getFileHandle filePtr)) (ht : s.findCode P p filePtr = .ok t) : t.Orderly P :=
  ⟨h.placed.findCode h.linked hp hu ht, h.linked.findCode hset ht⟩

theorem Orderly.cleanSegment (h : s.Orderly P) {a : Act} (ha : ∀ f w, a ≠ .sleeping f w) (hc : a.clean = [n])
    (hh : a.hand = [n]) (hp : (s.act p).hand = [n]) : ((s.cleanSegment n).setAct p a).Orderly P :=
  ⟨h.placed.cleanSegment (hh.trans hp.symm), h.linked.cleanSegment (h.placed.putDown hp).2.1.1 ha hc⟩

theorem step_eq (hs : step P s l = some t) : s.perform P l = some (.ok t) := by
  obtain ⟨r, hr, ht⟩ := Option.bind_eq_some_iff.1 hs
  cases r with
  | error e => nomatch ht
  | ok u => rw [hr, Option.some.inj ht]

theorem step_orderly (h : s.Orderly P) (hmet : Met P s l) (hs : step P s l = some t) : t.Orderly P := by
  obtain ⟨hp, hu⟩ := hmet
  have ht := step_eq hs
  cases l with
  | findCode p f =>
    unfold perform at ht
    dsimp only at ht
    split at ht
    · next ha => exact h.findCode (by rw [ha]; rfl) hp hu (Option.some.inj ht)
    · nomatch ht
  | again p =>
    unfold perform at ht
    dsimp only at ht
    split at ht
    · next f ha =>
      exact h.findCode (by rw [ha]; rfl) (h.linked.resting p f _ ha) (hu f _ ha) (Option.some.inj ht)
    · nomatch ht
  | initCode p f seg =>
    unfold perform at ht
    dsimp only at ht
    split at ht
    · cases ht
      refine ⟨h.placed.initCode f seg, h.linked.initCode h.placed hp.1 (fun m hm => ?_) fun m hm => ?_⟩
      · obtain ⟨hn, hin, hf⟩ := hp.2 m hm
        exact ⟨hn, ne_nil_of_mem hin, hf⟩
      · exact hu (by rw [hm]; nofun)
    · nomatch ht
  | segmentNew p type f =>
    unfold perform at ht
    dsimp only at ht
    split at ht
    · next ha =>
      cases ht
      exact ⟨h.placed.getNewSegment ha type f, h.linked.getNewSegment type f⟩
    · nomatch ht
  | segmentDelete p n =>
    unfold perform at ht
    dsimp only at ht
    split at ht
    · next ha =>
      have ht := Option.some.inj ht
      exact ⟨h.placed.segmentDeleteInt ha hp ht, h.linked.segmentDeleteInt ht⟩
    · nomatch ht
  | drained p =>
    unfold perform at ht
    dsimp only at ht
    split at ht
    · next n ha =>
      split at ht
      · cases ht
        exact ⟨h.placed.drained ha, h.linked.deleteRest⟩
      · nomatch ht
    · nomatch ht
  | cleanSegment p =>
    unfold perform at ht
    dsimp only at ht
    split at ht
    · next type f n ha =>
      cases ht
      exact h.cleanSegment nofun rfl rfl (by rw [ha]; rfl)
    · next n ha =>
      cases ht
      exact h.cleanSegment nofun rfl rfl (by rw [ha]; rfl)
    · nomatch ht
  | newAgain p =>
    unfold perform at ht
    dsimp only at ht
    split at ht
    · next type f n ha =>
      cases ht
      exact ⟨h.placed.newAgain ha, h.linked.newAgain ha⟩
    · nomatch ht
  | putOnFree p =>
    unfold perform at ht
    dsimp only at ht
    split at ht
    · next n ha =>
      cases ht
      exact ⟨h.placed.putOnFreeSegList ha, h.linked.putOnFreeSegList ha⟩
    · nomatch ht
  | segmentIncRef p n =>
    cases ht
    have hno := h.placed.not_kept hp.2
    exact ⟨h.placed.share (h.placed.apart.stay hno) hp.1 (fun _ _ => rfl) (h.placed.shared n hp.1.1 hp.1.2 hno).2
      (h.placed.counted n hp.1.1), h.linked.share⟩
  | incPTUserCount n => exact Except.ok.inj (Option.some.inj ht) ▸ h.setSeg rfl rfl rfl rfl
  | decPTUserCount n => exact Except.ok.inj (Option.some.inj ht) ▸ h.setSeg rfl rfl rfl rfl
  | spoil n => exact Except.ok.inj (Option.some.inj ht) ▸ h.setSeg rfl rfl rfl rfl
  | fileChanged g =>
    have ht := Option.some.inj ht
    exact ⟨h.placed.fileChanged h.linked hu ht, h.linked.fileChanged ht⟩
  | noSticky b =>
    cases ht
    obtain rfl : b = false := hu
    exact ⟨h.placed.frame rfl fun _ => ⟨rfl, rfl, rfl⟩,
      h.linked.frame (fun _ => rfl) rfl rfl h.linked.sticky.symm (fun _ hm => .inl hm) fun _ _ _ hq => hq⟩

theorem init_orderly (P : SegParams) : (segTableInit P).Orderly P := by
  have hfree : ∀ q n, n ∈ (segTableInit P).kept q → 0 < n ∧ n < P.numSegments := by
    intro q n hq
    match q with
    | .on .free =>
      have hq : n ∈ List.range' 1 (P.numSegments - 1) := hq
      rw [mem_range'_1] at hq
      omega
    | .on .inactive => nomatch hq
    | .on .dead => nomatch hq
    | .hand _ => nomatch hq
  have hseg : ∀ n, 0 < n → (segTableInit P).seg n = ⟨true, false, false, false, .code, 0, [], 0, none, none⟩ :=
    fun n hn => if_neg (Nat.ne_of_gt hn)
  refine ⟨⟨⟨fun q => ?_, fun q r n hq hr => ?_⟩, hfree, fun q n hq => ?_, fun n hpos hlt hno => ?_, nofun, fun n hn => ?_⟩,
    ⟨fun n h hn hf => ?_, nofun, fun n hl => ?_, nofun, nofun, nofun, nofun, nofun, rfl⟩⟩
  · match q with
    | .on .free => exact nodup_range'
    | .on .inactive | .on .dead | .hand _ => exact nodup_nil
  · match q, r with
    | .on .free, .on .free => rfl
    | .on .inactive, _ | .on .dead, _ | .hand _, _ => nomatch hq
    | .on .free, .on .inactive | .on .free, .on .dead | .on .free, .hand _ => nomatch hr
  · rw [hseg n (hfree q n hq).1]
  · exact absurd (mem_range'_1.2 ⟨hpos, by omega⟩) (hno (.on .free))
  · rw [hseg n hn]
    rfl
  · rw [hseg n hn] at hf
    nomatch hf
  · rcases hl with hl | hl | ⟨q, hq⟩
    · rw [hseg n (hfree (.on .free) n hl).1]
    · nomatch hl
    · nomatch hq

theorem run_orderly (hrun : Run (step P) (Met P) (segTableInit P) s) : s.Orderly P :=
  hrun.invariant (fun _ _ _ hi hmet hs => step_orderly hi hmet hs) (init_orderly P)

/-- Where a segment is; `none` is with the processes that share it. -/
def HeldIn (s : SegTable) (n : Nat) : Option SegPlace → Prop
  | some q => n ∈ s.kept q
  | none => (s.seg n).procList ≠ [] ∧ ∀ q, n ∉ s.kept q

theorem Placed.heldIn_unique (h : s.Placed P) (hn : 0 < n) (hlt : n < P.numSegments) : ∃! q, s.HeldIn n q := by
  by_cases hk : ∃ q, n ∈ s.kept q
  · obtain ⟨q, hq⟩ := hk
    refine ⟨some q, hq, fun r hr => ?_⟩
    cases r with
    | none => exact absurd hq (hr.2 q)
    | some r => exact congrArg some (h.apart.one r q n hr hq)
  · have hno : ∀ q, n ∉ s.kept q := fun q hq => hk ⟨q, hq⟩
    refine ⟨none, ⟨(h.shared n hn hlt hno).1, hno⟩, fun r hr => ?_⟩
    cases r with
    | none => rfl
    | some r => exact absurd hr (hno r)

/-- A process that was woken gets the segment, or is to set it up, or finds that another has begun to. -/
theorem Linked.again (h : s.Linked P) {f : Nat} (hp : s.act p = .sleeping f true) :
    ∃ t, s.perform P (.again p) = some (.ok t) ∧
      (t.act p = .none ∨ t.act p = .sleeping f false ∧ s.segPtr (P.getFileHandle f) = .settingUp) := by
  have hperf : s.perform P (.again p) = some (s.findCode P p f) := by
    unfold perform
    dsimp only
    rw [hp]
  have hdone : ∀ u : SegTable, (u.setAct p .none).act p = .none := fun _ => update_self _ _ _
  rw [hperf]
  unfold SegTable.findCode
  rw [if_neg (by rw [h.sticky]; decide)]
  split
  · exact ⟨_, rfl, .inl (hdone _)⟩
  · next hg => exact ⟨_, rfl, .inr ⟨update_self _ _ _, hg⟩⟩
  · next n hg =>
    split
    · rw [if_neg (not_not.2 (h.back _ n hg).2.2)]
      exact ⟨_, rfl, .inl (hdone _)⟩
    · exact ⟨_, rfl, .inl (hdone _)⟩

/-- After undisturbed execs and exits a file has one code segment at most, and who waits for it goes on. -/
theorem code_shared (P : SegParams) (s : SegTable) (hrun : Run (step P) (Met P) (segTableInit P) s) :
    (∀ m n h, 0 < m → 0 < n → (s.seg m).fileHandle = some h → (s.seg n).fileHandle = some h → m = n) ∧
    (∀ h, s.segPtr h = .nil ∨ (s.segPtr h = .settingUp ∧ ∃! p, s.setup p = some h) ∨
      ∃ n, s.segPtr h = .seg n ∧ (s.seg n).fileHandle = some h) ∧
    (∀ n h, 0 < n → (s.seg n).fileHandle = some h → s.segPtr h = .seg n) ∧
    (∀ n, 0 < n → n < P.numSegments → ∃! q, s.HeldIn n q) ∧ (∀ l, (s.lists l).Nodup) ∧
    (∀ n, 0 < n → (s.seg n).refCount = (s.seg n).procList.length) ∧
    (∀ p f, s.act p = .sleeping f false →
      s.segPtr (P.getFileHandle f) = .settingUp ∧ ∃ q, q ≠ p ∧ s.setup q = some (P.getFileHandle f)) ∧
    ∀ p f, s.act p = .sleeping f true → ∃ t, s.perform P (.again p) = some (.ok t) ∧
      (t.act p = .none ∨ t.act p = .sleeping f false ∧ s.segPtr (P.getFileHandle f) = .settingUp) := by
  obtain ⟨hpl, hl⟩ := run_orderly hrun
  refine ⟨fun m n h hm hn h1 h2 => ?_, fun h => ?_, hl.linked, fun n hn hlt => hpl.heldIn_unique hn hlt,
    fun l => hpl.apart.nodup (.on l), hpl.counted, fun p f hp => ?_, fun p f hp => hl.again hp⟩
  · exact BackPtr.seg.inj ((hl.linked m h hm h1).symm.trans (hl.linked n h hn h2))
  · cases hb : s.segPtr h with
    | nil => exact .inl rfl
    | settingUp =>
      obtain ⟨p, hp⟩ := hl.owned h hb
      exact .inr (.inl ⟨rfl, p, hp, fun q hq => hl.one q p h hq hp⟩)
    | seg n => exact .inr (.inr ⟨n, rfl, (hl.back h n hb).2.2⟩)
  · have hb := hl.asleep p f hp
    obtain ⟨q, hq⟩ := hl.owned _ hb
    refine ⟨hb, q, ?_, hq⟩
    rintro rfl
    rw [hl.resting q f false hp] at hq
    nomatch hq

/-- Segments 1 to 3; a stream is its file. -/
def threeSegments : SegParams := ⟨4, id⟩

def oneLooks : SegTable := (((segTableInit threeSegments).setSegPtr 7 .settingUp).setSetup 1 (some 7)).setAct 1 .none

def oneMade : SegTable := oneLooks.getNewSegment 1 .code (some 7)

def oneSetUp : SegTable := oneMade.initCode threeSegments 1 7 (some 1)

theorem act_oneSetUp (q : Nat) : oneSetUp.act q = .none := by
  show update (fun _ => Act.none) 1 .none q = .none
  rw [update_eq_self]

theorem code_shared_twice : (((oneSetUp.share 1 2).setAct 2 .none).seg 1).refCount
    = ((((oneSetUp.share 1 2).setAct 2 .none).seg 1).procList.length : Int) := by
  have hfind : Met threeSegments (segTableInit threeSegments) (.findCode 1 7) := ⟨rfl, nofun⟩
  have hlooks : step threeSegments (segTableInit threeSegments) (.findCode 1 7) = some oneLooks := rfl
  have hnew : step threeSegments oneLooks (.segmentNew 1 .code (some 7)) = some oneMade := rfl
  have hset : step threeSegments oneMade (.initCode 1 7 (some 1)) = some oneSetUp := rfl
  have hshare : step threeSegments oneSetUp (.findCode 2 7) = some ((oneSetUp.share 1 2).setAct 2 .none) := rfl
  have hinit : Met threeSegments oneMade (.initCode 1 7 (some 1)) := by
    refine ⟨⟨rfl, fun n hn => ?_⟩, fun _ q f hq => ?_⟩
    · cases hn
      exact ⟨by decide, by decide, rfl⟩
    · nomatch (act_oneSetUp q).symm.trans hq
  have hagain : Met threeSegments oneSetUp (.findCode 2 7) := by
    refine ⟨rfl, fun n _ q hq => ?_⟩
    rw [act_oneSetUp q] at hq
    nomatch hq
  have hmake : Met threeSegments oneLooks (.segmentNew 1 .code (some 7)) := ⟨trivial, trivial⟩
  have hrun := (((Run.refl (Met threeSegments) _).snoc hfind hlooks).snoc hmake hnew).snoc hinit hset
  exact (code_shared threeSegments _ (hrun.snoc hagain hshare)).2.2.2.2.2.1 1 Nat.one_pos

/-- The second of two processes that exec a file sleeps on when the first has set the segment up. -/
theorem init_wakes_nobody : ∃ s, Run (step threeSegments) (Promised threeSegments) (segTableInit threeSegments) s ∧
    s.act 2 = .sleeping 7 false ∧ s.segPtr (threeSegments.getFileHandle 7) = .seg 1 ∧ ∀ q, s.setup q = none := by
  obtain ⟨sleeps, hsl⟩ : ∃ u, u = oneLooks.setAct 2 (.sleeping 7 false) := ⟨_, rfl⟩
  obtain ⟨made, hmd⟩ : ∃ u, u = sleeps.getNewSegment 1 .code (some 7) := ⟨_, rfl⟩
  have hlooks : step threeSegments (segTableInit threeSegments) (.findCode 1 7) = some oneLooks := rfl
  have hsleeps : step threeSegments oneLooks (.findCode 2 7) = some sleeps := by rw [hsl]; rfl
  have hnew : step threeSegments sleeps (.segmentNew 1 .code (some 7)) = some made := by rw [hmd, hsl]; rfl
  have hset : step threeSegments made (.initCode 1 7 (some 1)) = some (made.initCode threeSegments 1 7 (some 1)) := by
    rw [hmd, hsl]; rfl
  have hinit : Promised threeSegments made (.initCode 1 7 (some 1)) := by
    rw [hmd, hsl]
    refine ⟨rfl, fun n hn => ?_⟩
    cases hn
    exact ⟨by decide, by decide, rfl⟩
  have hfirst : Promised threeSegments (segTableInit threeSegments) (.findCode 1 7) := rfl
  have hsecond : Promised threeSegments oneLooks (.findCode 2 7) := rfl
  have hmake : Promised threeSegments sleeps (.segmentNew 1 .code (some 7)) := trivial
  have hrun := (((Run.refl (Promised threeSegments) _).snoc hfirst hlooks).snoc hsecond hsleeps).snoc hmake hnew
  refine ⟨_, hrun.snoc hinit hset, by rw [hmd, hsl]; rfl, by rw [hmd, hsl]; rfl, fun q => ?_⟩
  rw [hmd, hsl]
  show update (update (fun _ => none) 1 (some 7)) 1 none q = none
  rw [update_idem, update_eq_self]

end SegTable

end SpriteKernel.Vm
