import SpriteKernel.Lfs.SegAdjust
import SpriteKernel.Lib.Chain
import SpriteKernel.Lib.Transition

/- The list of clean segments, threaded through their entries' `activeBytes`. Newly cleaned segments go in behind its
   head, which is the segment the log goes on in, as every log range given out says. With no clean segment left, what
   is cleaned is lost. -/
namespace SpriteKernel.Lfs

open Function List

open SpriteKernel Transition

namespace SegUsage

/-- The link in a clean segment's entry. -/
def link (u : SegUsage) (i : Int) : Int := (u.entry i).activeBytes

/-- The clean list of `u` visits `l`: the clean segments, each once. -/
structure Lists (u : SegUsage) (l : List Int) : Prop where
  links : Chain.Links u.link (-1) u.checkPoint.cleanSegList l
  nodup : l.Nodup
  mem : ∀ i, i ∈ l ↔ u.params.validSegmentNum i ∧ (u.entry i).clean = true
  length : (l.length : Int) = u.checkPoint.numClean

structure WellFormed (u : SegUsage) : Prop where
  unclean : (u.entry u.checkPoint.currentSegment).clean = false
  lists : ∃ l, Lists u l

variable {u u' : SegUsage} {l : List Int}

theorem Lists.frames (h : Lists u l) (hf : Frames u u') : Lists u' l := by
  refine ⟨?_, h.nodup, fun i => ?_, ?_⟩
  · rw [hf.cleanSegList]
    refine h.links.congr (fun i hi => ?_)
    unfold link
    rw [hf.entry i (.inl ((h.mem i).mp hi).2)]
  · rw [h.mem, hf.params, hf.clean]
  · rw [hf.numClean]
    exact h.length

theorem WellFormed.frames (h : WellFormed u) (hf : Frames u u') : WellFormed u' := by
  obtain ⟨l, hl⟩ := h.lists
  refine ⟨?_, l, hl.frames hf⟩
  rw [hf.currentSegment, hf.clean]
  exact h.unclean

theorem WellFormed.congr (h : WellFormed u) (hp : u'.params = u.params)
    (hc : u'.checkPoint.cleanSegList = u.checkPoint.cleanSegList)
    (hn : u'.checkPoint.numClean = u.checkPoint.numClean)
    (hcur : u'.checkPoint.currentSegment = u.checkPoint.currentSegment)
    (hclean : ∀ i, (u'.entry i).clean = (u.entry i).clean)
    (hlink : ∀ i, (u.entry i).clean = true → u'.link i = u.link i) : WellFormed u' := by
  obtain ⟨l, hl⟩ := h.lists
  refine ⟨?_, l, ?_, hl.nodup, fun i => ?_, ?_⟩
  · rw [hcur, hclean]
    exact h.unclean
  · rw [hc]
    exact hl.links.congr (fun i hi => hlink i ((hl.mem i).mp hi).2)
  · rw [hl.mem, hp, hclean]
  · rw [hn]
    exact hl.length

/-! ## The log -/

theorem retireCurrent_entry_of_ne {i : Int} (hi : i ≠ u.checkPoint.currentSegment) :
    u.retireCurrent.entry i = u.entry i := by
  exact setEntry_entry_of_ne hi _ _

theorem retireCurrent_clean (u : SegUsage) (i : Int) : (u.retireCurrent.entry i).clean = (u.entry i).clean := by
  by_cases hi : i = u.checkPoint.currentSegment
  · unfold retireCurrent
    rw [hi]
    simp only [setEntry_entry_self]
  · rw [retireCurrent_entry_of_ne hi]

theorem WellFormed.retireCurrent (h : WellFormed u) : WellFormed u.retireCurrent := by
  refine h.congr rfl rfl rfl rfl (retireCurrent_clean u) (fun i hi => ?_)
  unfold link
  rw [retireCurrent_entry_of_ne]
  intro he
  rw [he, h.unclean] at hi
  exact absurd hi Bool.false_ne_true

theorem takeClean_entry_self (segNumber : Int) (u : SegUsage) :
    (u.takeClean segNumber).entry segNumber = { u.entry segNumber with activeBytes := 0, clean := false } := by
  unfold takeClean
  simp only
  split
  · exact setEntry_entry_self _ _ _
  · exact setEntry_entry_self _ _ _

variable {segNumber : Int}

theorem takeClean_entry_of_ne {i : Int} (hi : i ≠ segNumber) (u : SegUsage) :
    (u.takeClean segNumber).entry i = u.entry i := by
  unfold takeClean
  simp only
  split
  · exact setEntry_entry_of_ne hi _ _
  · exact setEntry_entry_of_ne hi _ _

theorem takeClean_checkPoint (segNumber : Int) (u : SegUsage) : (u.takeClean segNumber).checkPoint =
    { u.checkPoint with
      cleanSegList := u.link segNumber
      previousSegment := u.checkPoint.currentSegment
      currentSegment := segNumber
      numClean := u.checkPoint.numClean - 1
      curSegActiveBytes := 0 } := by
  unfold takeClean
  simp only
  split <;> rfl

theorem takeClean_params (segNumber : Int) (u : SegUsage) : (u.takeClean segNumber).params = u.params := by
  unfold takeClean
  simp only
  split <;> rfl

theorem takeClean_blockIndex (segNumber : Int) (u : SegUsage) : (u.takeClean segNumber).blockIndex = u.blockIndex := by
  unfold takeClean
  simp only
  split <;> rfl

theorem WellFormed.takeClean (h : WellFormed u)
    (hv : u.params.validSegmentNum u.checkPoint.cleanSegList) : WellFormed (u.takeClean u.checkPoint.cleanSegList) := by
  obtain ⟨l, hl⟩ := h.lists
  have hne : u.checkPoint.cleanSegList ≠ -1 := by
    have := hv.1
    omega
  obtain ⟨rest, rfl, hrest⟩ := hl.links.head hne
  obtain ⟨hhead, hnodup⟩ := nodup_cons.mp hl.nodup
  refine ⟨?_, rest, ?_, hnodup, fun i => ?_, ?_⟩
  · rw [takeClean_checkPoint, takeClean_entry_self]
  · rw [takeClean_checkPoint]
    refine hrest.congr (fun i hi => ?_)
    unfold link
    rw [takeClean_entry_of_ne (fun he : i = u.checkPoint.cleanSegList => hhead (he ▸ hi))]
  · rw [takeClean_params]
    by_cases hi : i = u.checkPoint.cleanSegList
    · rw [hi, takeClean_entry_self]
      exact iff_of_false hhead (fun hc => absurd hc.2 Bool.false_ne_true)
    · rw [takeClean_entry_of_ne hi, ← hl.mem, mem_cons]
      exact (or_iff_right hi).symm
  · rw [takeClean_checkPoint, ← hl.length, length_cons]
    push_cast
    omega

theorem newLogSegment_cases : (u.newLogSegment.1.range = none ∧ u.newLogSegment.2.checkPoint.cleanSegList = u.checkPoint.cleanSegList) ∨
    ∃ r, u.newLogSegment.1.range = some r ∧ r.current = u.checkPoint.cleanSegList ∧
      r.nextSeg = u.newLogSegment.2.checkPoint.cleanSegList := by
  unfold newLogSegment
  have hf := frames_fetch u.checkPoint.currentSegment none u
  generalize u.fetch u.checkPoint.currentSegment none = f at hf ⊢
  obtain ⟨e | e, u₁⟩ := f
  · exact .inl ⟨rfl, hf.cleanSegList⟩
  simp only at hf ⊢
  have hg := frames_fetch u₁.retireCurrent.checkPoint.cleanSegList (some { e with modified := true }) u₁.retireCurrent
  generalize u₁.retireCurrent.fetch u₁.retireCurrent.checkPoint.cleanSegList (some { e with modified := true }) = g at hg ⊢
  obtain ⟨e' | e', u₂⟩ := g
  · exact .inl ⟨rfl, hg.cleanSegList.trans hf.cleanSegList⟩
  have hrel := frames_release { e' with modified := true } (u₂.takeClean u₁.retireCurrent.checkPoint.cleanSegList)
  refine .inr ⟨_, rfl, ?_, hrel.cleanSegList.symm⟩
  unfold logRange
  rw [takeClean_checkPoint]
  exact hf.cleanSegList

theorem WellFormed.newLogSegment (h : WellFormed u) : WellFormed u.newLogSegment.2 := by
  unfold SegUsage.newLogSegment
  have hf := frames_fetch u.checkPoint.currentSegment none u
  generalize u.fetch u.checkPoint.currentSegment none = f at hf ⊢
  obtain ⟨e | e, u₁⟩ := f
  · exact (h.frames hf).frames (frames_stop u₁)
  simp only at hf ⊢
  have h₁ := (h.frames hf).retireCurrent
  by_cases hv : u₁.retireCurrent.params.validSegmentNum u₁.retireCurrent.checkPoint.cleanSegList
  · have hg := frames_fetch u₁.retireCurrent.checkPoint.cleanSegList (some { e with modified := true }) u₁.retireCurrent
    generalize u₁.retireCurrent.fetch u₁.retireCurrent.checkPoint.cleanSegList (some { e with modified := true }) = g
      at hg ⊢
    obtain ⟨e' | e', u₂⟩ := g
    · exact (h₁.frames hg).frames (frames_stop u₂)
    · rw [← hg.cleanSegList]
      exact ((h₁.frames hg).takeClean (by rwa [hg.params, hg.cleanSegList])).frames (frames_release _ _)
  · rw [fetch_invalid hv]
    exact (h₁.frames (frames_releaseHeld _ _)).frames (frames_stop _)

/-- The current segment is full, and a clean one may be taken. -/
def NeedsSegment (u : SegUsage) (cantWait : Bool) : Prop :=
  u.checkPoint.currentBlockOffset = -1 ∧ u.checkPoint.numClean ≠ 0 ∧
    (cantWait = true ∨ u.params.minNumClean < u.checkPoint.numClean)

instance (u : SegUsage) (cantWait : Bool) : Decidable (u.NeedsSegment cantWait) :=
  inferInstanceAs (Decidable (_ ∧ _ ∧ _))

theorem frames_started (h : u' = u ∨ u' = u.segCleanStart) : Frames u u' := by
  rcases h with rfl | rfl
  · exact Frames.refl u'
  · exact frames_segCleanStart u

theorem getLogTail_cases (cantWait : Bool) (u : SegUsage) :
    ∃ u', (u' = u ∨ u' = u.segCleanStart) ∧
    (((u.getLogTail cantWait).1.range = none ∧ (u.getLogTail cantWait).2 = u') ∨
      (u.checkPoint.currentBlockOffset ≠ -1 ∧ (u.getLogTail cantWait).1.range = some u'.logRange ∧
        (u.getLogTail cantWait).2 = u') ∨
      (u.NeedsSegment cantWait ∧ u.getLogTail cantWait = u'.newLogSegment)) := by
  unfold getLogTail
  simp only
  have hlow : u.checkPoint.numClean ≤ u.params.minNumClean →
      cantWait = true ∨ (!cantWait && decide (u.checkPoint.numClean ≤ u.params.minNumClean + lfsMinCleanThreshold)) =
        true := by
    intro hle
    cases cantWait with
    | true => exact .inl rfl
    | false =>
      unfold lfsMinCleanThreshold
      simp only [Bool.not_false, Bool.true_and, decide_eq_true_eq]
      omega
  generalize (!cantWait && decide (u.checkPoint.numClean ≤ u.params.minNumClean + lfsMinCleanThreshold)) = low at hlow ⊢
  have hstart : (if low = true then u.segCleanStart else u) = u ∨
      (if low = true then u.segCleanStart else u) = u.segCleanStart := by
    split
    · exact .inr rfl
    · exact .inl rfl
  refine ⟨_, hstart, ?_⟩
  have hframes := frames_started hstart
  generalize (if low = true then u.segCleanStart else u) = u' at hframes ⊢
  by_cases hwait : (low && decide (u.checkPoint.numClean ≤ u'.params.minNumClean)) = true
  · rw [if_pos hwait]
    exact .inl ⟨rfl, rfl⟩
  rw [if_neg hwait]
  by_cases hoff : u.checkPoint.currentBlockOffset = -1
  · rw [if_neg (not_not.mpr hoff)]
    by_cases hclean : u.checkPoint.numClean = 0
    · rw [if_pos hclean]
      exact .inl ⟨rfl, rfl⟩
    · rw [if_neg hclean]
      refine .inr (.inr ⟨⟨hoff, hclean, ?_⟩, rfl⟩)
      rw [hframes.params, Bool.and_eq_true, decide_eq_true_eq, not_and] at hwait
      by_cases hle : u.checkPoint.numClean ≤ u.params.minNumClean
      · exact .inl ((hlow hle).resolve_right (fun hl => hwait hl hle))
      · exact .inr (Int.not_le.mp hle)
  · rw [if_pos hoff]
    exact .inr (.inl ⟨hoff, rfl, rfl⟩)

theorem WellFormed.getLogTail (h : WellFormed u) (cantWait : Bool) : WellFormed (u.getLogTail cantWait).2 := by
  obtain ⟨u', hf, ⟨-, hres⟩ | ⟨-, -, hres⟩ | ⟨-, hres⟩⟩ := getLogTail_cases cantWait u
  all_goals have hf := frames_started hf
  · rw [hres]
    exact h.frames hf
  · rw [hres]
    exact h.frames hf
  · rw [hres]
    exact (h.frames hf).newLogSegment

theorem WellFormed.setLogTail (h : WellFormed u) (range : SegLogRange)
    (startBlock activeBytes time : Int) : WellFormed (u.setLogTail range startBlock activeBytes time) := by
  unfold SegUsage.setLogTail
  have hset : WellFormed { u.setCheckPoint { u.checkPoint with currentBlockOffset := startBlock } with
      timeOfLastWrite := max u.timeOfLastWrite time } :=
    h.congr rfl rfl rfl rfl (fun _ => rfl) (fun _ _ => rfl)
  split
  · exact hset.frames (frames_setSegUsage _ _ _)
  · exact hset

/-! ## Cleaning -/

theorem link_setEntry (n : Int) (s : SegUsageEntry) (u : SegUsage) :
    (u.setEntry n s).link = update u.link n s.activeBytes := by
  funext i
  unfold link
  by_cases hi : i = n
  · rw [hi, setEntry_entry_self, update_self]
  · rw [setEntry_entry_of_ne hi, update_of_ne hi]

/-- `LfsMarkSegsClean` on its way: the list as it was, and the segments marked so far on one of their own. -/
structure Marks (m : Marking) (l k : List Int) : Prop where
  unclean : (m.usage.entry m.usage.checkPoint.currentSegment).clean = false
  links : Chain.Links m.usage.link (-1) m.usage.checkPoint.cleanSegList l
  marked : Chain.Links m.usage.link (-1) m.previous k
  first : k ≠ [] → k.getLast? = some m.first
  nodup : (k ++ l).Nodup
  mem : ∀ i, i ∈ k ++ l ↔ m.usage.params.validSegmentNum i ∧ (m.usage.entry i).clean = true
  length : ((k.length + l.length : Nat) : Int) = m.usage.checkPoint.numClean

variable {m : Marking} {k : List Int}

theorem Marks.frames (h : Marks m l k) (hf : Frames m.usage u)
    (held : Option SmemEntry) : Marks { m with held := held, usage := u } l k := by
  have hlink : ∀ i ∈ k ++ l, u.link i = m.usage.link i := by
    intro i hi
    unfold link
    rw [hf.entry i (.inl ((h.mem i).mp hi).2)]
  refine ⟨?_, ?_, ?_, h.first, h.nodup, fun i => ?_, ?_⟩
  · rw [hf.currentSegment, hf.clean]
    exact h.unclean
  · rw [hf.cleanSegList]
    exact h.links.congr (fun i hi => hlink i (mem_append_right k hi))
  · exact h.marked.congr (fun i hi => hlink i (mem_append_left l hi))
  · rw [h.mem, hf.params, hf.clean]
  · rw [hf.numClean]
    exact h.length

theorem WellFormed.marks (h : WellFormed u) (hl : Lists u l) : Marks { usage := u } l [] :=
  ⟨h.unclean, hl.links, rfl, fun hne => absurd rfl hne, hl.nodup, hl.mem, by
    rw [length_nil, Nat.zero_add]
    exact hl.length⟩

/-- What `LfsMarkSegsClean` can take: nothing, or a segment that is not being written. -/
def Markable (u : SegUsage) (segNumber : Int) : Prop :=
  segNumber = -1 ∨ u.params.validSegmentNum segNumber ∧ segNumber ≠ u.checkPoint.currentSegment

instance (u : SegUsage) (segNumber : Int) : Decidable (Markable u segNumber) :=
  inferInstanceAs (Decidable (_ ∨ _))

/-- The loop does not move the head of the list, nor the log. -/
structure SameLog (u u' : SegUsage) : Prop where
  params : u'.params = u.params
  cleanSegList : u'.checkPoint.cleanSegList = u.checkPoint.cleanSegList
  currentSegment : u'.checkPoint.currentSegment = u.checkPoint.currentSegment

theorem Frames.sameLog (h : Frames u u') : SameLog u u' :=
  ⟨h.params, h.cleanSegList, h.currentSegment⟩

variable {v : SegUsage}

theorem SameLog.trans {w : SegUsage} (h : SameLog u v) (h' : SameLog v w) : SameLog u w :=
  ⟨h'.params.trans h.params, h'.cleanSegList.trans h.cleanSegList, h'.currentSegment.trans h.currentSegment⟩

theorem markSegClean_sameLog {m' : Marking} (h : markSegClean segNumber m = some m') : SameLog m.usage m'.usage := by
  unfold markSegClean at h
  split at h
  · cases h
    exact (Frames.refl m.usage).sameLog
  have hf := frames_fetch segNumber m.held m.usage
  generalize m.usage.fetch segNumber m.held = f at h hf
  obtain ⟨e | e, u⟩ := f
  · simp at h
  simp only at h hf
  split at h
  · cases h
    exact hf.sameLog
  · cases h
    exact hf.sameLog.trans ⟨rfl, rfl, rfl⟩

theorem markLoop_sameLog (segs : List Int) (m : Marking) : SameLog m.usage (markLoop segs m).2.usage := by
  induction segs generalizing m with
  | nil => exact (Frames.refl m.usage).sameLog
  | cons segNumber segs ih =>
    unfold markLoop
    cases hm : markSegClean segNumber m with
    | none => exact ((frames_fetch segNumber m.held m.usage).trans (frames_stop _)).sameLog
    | some m' => exact (markSegClean_sameLog hm).trans (ih m')

/-- A segment that was not clean goes onto the list of the marked ones. -/
theorem Marks.markSegClean (h : Marks m l k) (hs : Markable m.usage segNumber) :
    ∃ m' k', SegUsage.markSegClean segNumber m = some m' ∧ Marks m' l k' := by
  unfold SegUsage.markSegClean
  by_cases hskip : segNumber = -1
  · rw [if_pos hskip]
    exact ⟨m, k, rfl, h⟩
  obtain ⟨hv, hcur⟩ := hs.resolve_left hskip
  rw [if_neg hskip]
  have hf := frames_fetch segNumber m.held m.usage
  obtain ⟨e, he, -⟩ := fetch_eq_some hv m.held
  generalize m.usage.fetch segNumber m.held = f at he hf ⊢
  obtain ⟨_, u⟩ := f
  obtain rfl : _ = some e := he
  simp only at hf ⊢
  have hu := h.frames hf (some e)
  by_cases hclean : (u.entry segNumber).clean = true
  · rw [if_pos hclean]
    exact ⟨_, k, rfl, hu⟩
  rw [if_neg hclean]
  have hout : segNumber ∉ k ++ l := fun hmem => hclean ((hu.mem segNumber).mp hmem).2
  rw [mem_append, not_or] at hout
  refine ⟨_, segNumber :: k, rfl, ?_, ?_, ?_, fun _ => ?_, ?_, fun i => ?_, ?_⟩
  · rw [setEntry_checkPoint, setCheckPoint_checkPoint, setEntry_entry_of_ne (by rw [hf.currentSegment]; exact hcur.symm)]
    exact hu.unclean
  · rw [link_setEntry]
    exact hu.links.update hout.2 m.previous
  · rw [link_setEntry]
    exact hu.marked.cons hout.1 hskip
  · by_cases hk : k = []
    · have hp : m.previous = -1 := by
        have hmarked := hu.marked
        rw [hk] at hmarked
        exact hmarked
      rw [hk, if_pos hp]
      rfl
    · have hp : m.previous ≠ -1 := fun hp => hk (Chain.Links.eq_nil (hp ▸ hu.marked))
      rw [if_neg hp]
      obtain ⟨d, k, rfl⟩ := exists_cons_of_ne_nil hk
      exact hu.first hk
  · rw [cons_append, nodup_cons, mem_append, not_or]
    exact ⟨hout, hu.nodup⟩
  · rw [cons_append, mem_cons, hu.mem]
    by_cases hi : i = segNumber
    · rw [hi, setEntry_entry_self]
      refine iff_of_true (.inl rfl) ⟨?_, rfl⟩
      rw [setEntry_params, setCheckPoint_params, hf.params]
      exact hv
    · rw [setEntry_entry_of_ne hi]
      exact or_iff_right hi
  · have hlen := hu.length
    simp only [setEntry_checkPoint, setCheckPoint_checkPoint, length_cons]
    push_cast at hlen ⊢
    omega

theorem Markable.sameLog (h : SameLog u u') (hs : Markable u segNumber) : Markable u' segNumber := by
  unfold Markable at *
  rwa [h.params, h.currentSegment]

variable {segs : List Int}

theorem Marks.markLoop (h : Marks m l k)
    (hs : ∀ s ∈ segs, Markable m.usage s) :
    ∃ m' k', SegUsage.markLoop segs m = (true, m') ∧ Marks m' l k' := by
  induction segs generalizing m k with
  | nil => exact ⟨m, k, rfl, h⟩
  | cons segNumber segs ih =>
    obtain ⟨m', k', hm, hmarks⟩ := h.markSegClean (hs segNumber mem_cons_self)
    unfold SegUsage.markLoop
    simp only [hm]
    exact ih hmarks (fun s hmem => (hs s (mem_cons_of_mem segNumber hmem)).sameLog (markSegClean_sameLog hm))

theorem Marks.insertMarked (h : Marks m l k) (hp : m.previous ≠ -1)
    (hhead : m.usage.checkPoint.cleanSegList ≠ -1) : WellFormed (SegUsage.insertMarked m) := by
  obtain ⟨rest, rfl, -⟩ := h.links.head hhead
  have hk : k ≠ [] := fun hk => hp (by have hmarked := h.marked; rw [hk] at hmarked; exact hmarked)
  have hlast := h.first hk
  generalize hd : m.usage.checkPoint.cleanSegList = head at *
  obtain ⟨hvHead, hcHead⟩ := (h.mem head).mp (mem_append_right k mem_cons_self)
  obtain ⟨hvFirst, hcFirst⟩ := (h.mem m.first).mp (mem_append_left _ (mem_of_getLast? hlast))
  unfold SegUsage.insertMarked
  simp only [hd]
  -- the head's entry
  have hf := frames_fetch head m.held m.usage
  obtain ⟨e, he, -⟩ := fetch_eq_some hvHead m.held
  generalize m.usage.fetch head m.held = f at he hf ⊢
  obtain ⟨_, u₁⟩ := f
  obtain rfl : _ = some e := he
  simp only at hf ⊢
  -- the first marked segment's entry
  generalize hu₂ : u₁.setEntry head { u₁.entry head with activeBytes := m.previous } = u₂
  have hparams₂ : u₂.params = m.usage.params := by rw [← hu₂]; exact hf.params
  have hclean₂ : ∀ i, (u₂.entry i).clean = (m.usage.entry i).clean := by
    intro i
    rw [← hu₂]
    by_cases hi : i = head
    · rw [hi, setEntry_entry_self]
      exact hf.clean head
    · rw [setEntry_entry_of_ne hi]
      exact hf.clean i
  have hg := frames_fetch m.first (some { e with modified := true }) u₂
  obtain ⟨e', he', -⟩ := fetch_eq_some (u := u₂) (by rwa [hparams₂]) (some { e with modified := true })
  generalize u₂.fetch m.first (some { e with modified := true }) = g at he' hg ⊢
  obtain ⟨_, u₃⟩ := g
  obtain rfl : _ = some e' := he'
  refine WellFormed.frames ?_ (frames_release _ _)
  have hclean : ∀ i, ((u₃.setEntry m.first { u₃.entry m.first with activeBytes := (u₁.entry head).activeBytes }).entry
      i).clean = (m.usage.entry i).clean := by
    intro i
    by_cases hi : i = m.first
    · rw [hi, setEntry_entry_self]
      exact (hg.clean m.first).trans (hclean₂ m.first)
    · rw [setEntry_entry_of_ne hi]
      exact (hg.clean i).trans (hclean₂ i)
  -- the links of clean segments, through the two stores
  have hlink : ∀ i ∈ k ++ head :: rest,
      (u₃.setEntry m.first { u₃.entry m.first with activeBytes := (u₁.entry head).activeBytes }).link i =
        update (update m.usage.link head m.previous) m.first (m.usage.link head) i := by
    intro i hi
    obtain ⟨-, hci⟩ := (h.mem i).mp hi
    rw [link_setEntry]
    by_cases hif : i = m.first
    · rw [hif, update_self, update_self]
      unfold link
      rw [hf.entry head (.inl hcHead)]
    · rw [update_of_ne hif, update_of_ne hif]
      have hsame : u₃.link i = u₂.link i := by
        unfold link
        rw [hg.entry i (.inl (by rw [hclean₂]; exact hci))]
      rw [hsame, ← hu₂, link_setEntry]
      by_cases hih : i = head
      · rw [hih, update_self, update_self]
      · rw [update_of_ne hih, update_of_ne hih]
        unfold link
        rw [hf.entry i (.inl hci)]
  have hnodup := nodup_append.mp h.nodup
  obtain ⟨hheadRest, -⟩ := nodup_cons.mp hnodup.2.1
  have hlinks := h.links
  rw [hd] at hlinks
  have hchain := hlinks.insert h.marked hlast hnodup.1 hheadRest
    (fun c hc hck => hnodup.2.2 c hck c hc rfl)
  have hperm : (head :: (k ++ rest)).Perm (k ++ head :: rest) := perm_middle.symm
  refine ⟨?_, head :: (k ++ rest), ?_, hperm.nodup_iff.mpr h.nodup, fun i => ?_, ?_⟩
  · rw [hclean]
    have hcur : u₃.checkPoint.currentSegment = m.usage.checkPoint.currentSegment :=
      hg.currentSegment.trans (by rw [← hu₂]; exact hf.currentSegment)
    rw [setEntry_checkPoint, hcur]
    exact h.unclean
  · have hcur : u₃.checkPoint.cleanSegList = head :=
      hg.cleanSegList.trans (by rw [← hu₂]; exact hf.cleanSegList.trans hd)
    rw [setEntry_checkPoint, hcur]
    exact hchain.congr (fun i hi => hlink i (hperm.mem_iff.mp hi))
  · rw [hperm.mem_iff, h.mem, hclean, setEntry_params, hg.params, hparams₂]
  · have hnum : u₃.checkPoint.numClean = m.usage.checkPoint.numClean :=
      hg.numClean.trans (by rw [← hu₂]; exact hf.numClean)
    rw [setEntry_checkPoint, hnum, ← h.length, hperm.length_eq, length_append]

theorem Marks.wellFormed (h : Marks m l k) (hp : m.previous = -1) : WellFormed m.usage := by
  obtain rfl : k = [] := Chain.Links.eq_nil (hp ▸ h.marked)
  refine ⟨h.unclean, l, h.links, h.nodup, h.mem, ?_⟩
  rw [← h.length, length_nil, Nat.zero_add]

theorem markLoop_of_skipped (hs : ∀ s ∈ segs, s = -1) (m : Marking) : SegUsage.markLoop segs m = (true, m) := by
  induction segs with
  | nil => rfl
  | cons s segs ih =>
    unfold SegUsage.markLoop SegUsage.markSegClean
    rw [if_pos (hs s mem_cons_self)]
    exact ih (fun s' hs' => hs s' (mem_cons_of_mem s hs'))

theorem WellFormed.markSegsClean (h : WellFormed u) (hs : ∀ s ∈ segs, Markable u s) (hlist : u.checkPoint.cleanSegList ≠ -1 ∨ ∀ s ∈ segs, s = -1) :
    WellFormed (u.markSegsClean segs) := by
  obtain ⟨l, hl⟩ := h.lists
  obtain ⟨m, k, hm, hmarks⟩ := (h.marks hl).markLoop hs
  have hlog := markLoop_sameLog segs { usage := u }
  unfold SegUsage.markSegsClean
  simp only [hm, Bool.not_true, Bool.false_eq_true, if_false]
  rw [hm] at hlog
  by_cases hp : m.previous = -1
  · rw [if_pos hp]
    exact hmarks.wellFormed hp
  · rw [if_neg hp]
    refine hmarks.insertMarked hp ?_
    rw [hlog.cleanSegList]
    refine hlist.resolve_right (fun hskip => hp ?_)
    rw [markLoop_of_skipped hskip] at hm
    rw [← (Prod.mk.inj hm).2]

/-! ## Dirty levels -/

theorem WellFormed.flagDirty (h : WellFormed u) (segNum numDirty : Int) :
    WellFormed ((u.setCheckPoint { u.checkPoint with numDirty := numDirty }).setEntry segNum
      { u.entry segNum with dirty := true }) := by
  refine h.congr rfl rfl rfl rfl (fun i => ?_) (fun i _ => ?_)
  · by_cases hi : i = segNum
    · rw [hi, setEntry_entry_self]
    · rw [setEntry_entry_of_ne hi]
      rfl
  · rw [link_setEntry]
    by_cases hi : i = segNum
    · rw [hi, update_self]
      rfl
    · rw [update_of_ne hi]
      rfl

theorem WellFormed.setDirtyLevelOf {h : Option SmemEntry × SegUsage} (hw : WellFormed h.2)
    (level segNum : Int) : WellFormed (SegUsage.setDirtyLevelOf level segNum h).2 := by
  unfold SegUsage.setDirtyLevelOf
  have hf := frames_fetch segNum h.1 h.2
  generalize h.2.fetch segNum h.1 = f at hf ⊢
  obtain ⟨e | e, u⟩ := f
  · exact (hw.frames hf).frames (frames_stop u)
  simp only at hf ⊢
  split
  · split
    · exact hw.frames hf
    · exact (hw.frames hf).flagDirty segNum _
  · exact hw.frames hf

theorem WellFormed.setDirtyLevel (h : WellFormed u) (level : Int) : WellFormed (u.setDirtyLevel level) := by
  have hlevel : WellFormed (u.setCheckPoint { u.checkPoint with dirtyActiveBytes := level }) :=
    h.congr rfl rfl rfl rfl (fun _ => rfl) (fun _ _ => rfl)
  refine WellFormed.frames ?_ (frames_releaseHeld _ _)
  exact List.foldlRecOn (motive := fun r : Option SmemEntry × SegUsage => WellFormed r.2) _ _ hlevel
    (fun r hr segNum _ => hr.setDirtyLevelOf level segNum)

theorem WellFormed.considerSeg {h : List SegListEntry × Option SmemEntry × SegUsage} (hw : WellFormed h.2.2)
    (maxSegArrayLen : Nat) (currentTime segNum : Int) :
    WellFormed (SegUsage.considerSeg maxSegArrayLen currentTime segNum h).2.2 := by
  obtain ⟨segs, held, u⟩ := h
  unfold SegUsage.considerSeg
  simp only at hw ⊢
  split
  · exact hw
  have hf := frames_fetch segNum held u
  generalize u.fetch segNum held = f at hf ⊢
  obtain ⟨e | e, u'⟩ := f
  · exact (hw.frames hf).frames (frames_stop u')
  simp only at hf ⊢
  split
  · exact (hw.frames hf).flagDirty segNum _
  · exact hw.frames hf

theorem WellFormed.getSegsToClean (h : WellFormed u) (maxSegArrayLen : Nat) (currentTime : Int)
    (fullClean : Bool) : WellFormed (u.getSegsToClean maxSegArrayLen currentTime fullClean).2 := by
  refine WellFormed.frames ?_ (frames_releaseHeld _ _)
  exact List.foldlRecOn (motive := fun r : List SegListEntry × Option SmemEntry × SegUsage => WellFormed r.2.2)
    _ _ h
    (fun r hr segNum _ => hr.considerSeg maxSegArrayLen currentTime segNum)

/-! ## Runs -/

/-- Segments to mark clean are in range and not being written; there is a clean one to put them behind. -/
def KeepsList (u : SegUsage) : Label → Prop
  | .markSegsClean segs =>
    (∀ s ∈ segs, Markable u s) ∧ (u.checkPoint.cleanSegList ≠ -1 ∨ ∀ s ∈ segs, s = -1)
  | _ => True

instance (u : SegUsage) : (l : Label) → Decidable (KeepsList u l)
  | .markSegsClean _ => inferInstanceAs (Decidable (_ ∧ _))
  | .setSegUsage _ _ | .getLogTail _ | .setLogTail _ _ _ _ | .setDirtyLevel _ | .getSegsToClean _ _ _ =>
    inferInstanceAs (Decidable True)

theorem wellFormed_step {l : Label} (h : WellFormed u) (hk : KeepsList u l)
    (hs : step u l = some v) : WellFormed v := by
  unfold step at hs
  split at hs
  · simp at hs
  cases hs
  cases l with
  | setSegUsage segNumber activeBytes => exact h.frames (frames_setSegUsage _ _ _)
  | getLogTail cantWait => exact h.getLogTail cantWait
  | setLogTail range startBlock activeBytes time => exact h.setLogTail range startBlock activeBytes time
  | setDirtyLevel level => exact h.setDirtyLevel level
  | getSegsToClean maxSegArrayLen currentTime fullClean =>
    exact h.getSegsToClean maxSegArrayLen currentTime fullClean
  | markSegsClean segs => exact h.markSegsClean hk.1 hk.2

def HandsOut (u : SegUsage) : Label → Prop
  | .getLogTail cantWait => u.checkPoint.currentBlockOffset = -1 ∧ (u.getLogTail cantWait).1.range ≠ none
  | _ => False

theorem insertMarked_sameLog (m : Marking) : SameLog m.usage (insertMarked m) := by
  unfold insertMarked
  simp only
  generalize m.usage.checkPoint.cleanSegList = head
  have hf := frames_fetch head m.held m.usage
  generalize m.usage.fetch head m.held = f at hf ⊢
  obtain ⟨e | e, u₁⟩ := f
  · exact (hf.trans (frames_stop u₁)).sameLog
  simp only at hf ⊢
  have hset : SameLog u₁ (u₁.setEntry head { u₁.entry head with activeBytes := m.previous }) := ⟨rfl, rfl, rfl⟩
  generalize u₁.setEntry head { u₁.entry head with activeBytes := m.previous } = u₂ at hset ⊢
  have hg := frames_fetch m.first (some { e with modified := true }) u₂
  generalize u₂.fetch m.first (some { e with modified := true }) = g at hg ⊢
  obtain ⟨e' | e', u₃⟩ := g
  · exact (hf.sameLog.trans hset).trans (hg.trans (frames_stop u₃)).sameLog
  · have hstore : SameLog u₃
        (u₃.setEntry m.first { u₃.entry m.first with activeBytes := (u₁.entry head).activeBytes }) := ⟨rfl, rfl, rfl⟩
    exact ((hf.sameLog.trans hset).trans hg.sameLog).trans (hstore.trans (frames_release _ _).sameLog)

theorem markSegsClean_sameLog (segs : List Int) (u : SegUsage) : SameLog u (u.markSegsClean segs) := by
  have hloop := markLoop_sameLog segs { usage := u }
  unfold markSegsClean
  simp only
  split
  · exact hloop
  · split
    · exact hloop
    · exact hloop.trans (insertMarked_sameLog _)

theorem setDirtyLevel_sameLog (level : Int) (u : SegUsage) : SameLog u (u.setDirtyLevel level) := by
  refine SameLog.trans ?_ (frames_releaseHeld _ _).sameLog
  refine List.foldlRecOn (motive := fun r : Option SmemEntry × SegUsage => SameLog u r.2) _ _ ⟨rfl, rfl, rfl⟩
    (fun r hr segNum _ => hr.trans ?_)
  unfold setDirtyLevelOf
  have hf := frames_fetch segNum r.1 r.2
  generalize r.2.fetch segNum r.1 = f at hf ⊢
  obtain ⟨e | e, u'⟩ := f
  · exact (hf.trans (frames_stop u')).sameLog
  simp only at hf ⊢
  split
  · split
    · exact hf.sameLog
    · exact hf.sameLog.trans ⟨rfl, rfl, rfl⟩
  · exact hf.sameLog

theorem getSegsToClean_sameLog (maxSegArrayLen : Nat) (currentTime : Int) (fullClean : Bool) (u : SegUsage) :
    SameLog u (u.getSegsToClean maxSegArrayLen currentTime fullClean).2 := by
  refine SameLog.trans ?_ (frames_releaseHeld _ _).sameLog
  refine List.foldlRecOn (motive := fun r : List SegListEntry × Option SmemEntry × SegUsage => SameLog u r.2.2) _ _
    ⟨rfl, rfl, rfl⟩ (fun r hr segNum _ => hr.trans ?_)
  obtain ⟨segs, held, u₀⟩ := r
  unfold considerSeg
  simp only
  split
  · exact ⟨rfl, rfl, rfl⟩
  have hf := frames_fetch segNum held u₀
  generalize u₀.fetch segNum held = f at hf ⊢
  obtain ⟨e | e, u'⟩ := f
  · exact (hf.trans (frames_stop u')).sameLog
  simp only at hf ⊢
  split
  · exact hf.sameLog.trans ⟨rfl, rfl, rfl⟩
  · exact hf.sameLog

theorem step_head {l : Label} (hl : ¬HandsOut u l) (hs : step u l = some v) :
    v.checkPoint.cleanSegList = u.checkPoint.cleanSegList := by
  unfold step at hs
  split at hs
  · simp at hs
  cases hs
  cases l with
  | setSegUsage segNumber activeBytes => exact (frames_setSegUsage _ _ _).cleanSegList
  | getLogTail cantWait =>
    obtain ⟨u', hf, ⟨-, hres⟩ | ⟨-, -, hres⟩ | ⟨hneeds, hres⟩⟩ := getLogTail_cases cantWait u
    all_goals have hf := frames_started hf
    · simp only [hres]
      exact hf.cleanSegList
    · simp only [hres]
      exact hf.cleanSegList
    · simp only [hres]
      obtain ⟨-, hsame⟩ | ⟨r, hrange, -⟩ := @newLogSegment_cases u'
      · exact hsame.trans hf.cleanSegList
      · exact absurd ⟨hneeds.1, by rw [hres, hrange]; exact Option.some_ne_none r⟩ hl
  | setLogTail range startBlock activeBytes time =>
    simp only [setLogTail]
    split
    · exact (frames_setSegUsage _ _ _).cleanSegList
    · rfl
  | setDirtyLevel level => exact (setDirtyLevel_sameLog level u).cleanSegList
  | getSegsToClean maxSegArrayLen currentTime fullClean =>
    exact (getSegsToClean_sameLog maxSegArrayLen currentTime fullClean u).cleanSegList
  | markSegsClean segs => exact (markSegsClean_sameLog segs u).cleanSegList

theorem getLogTail_nextSeg {cantWait : Bool} {r : SegLogRange}
    (h : (u.getLogTail cantWait).1.range = some r) :
    r.nextSeg = (u.getLogTail cantWait).2.checkPoint.cleanSegList ∧
      (u.checkPoint.currentBlockOffset = -1 → r.current = u.checkPoint.cleanSegList) := by
  obtain ⟨u', hf, ⟨hnone, -⟩ | ⟨hoff, hrange, hres⟩ | ⟨-, hres⟩⟩ := getLogTail_cases cantWait u
  · rw [hnone] at h
    simp at h
  · rw [hrange, Option.some.injEq] at h
    rw [hres, ← h]
    exact ⟨rfl, fun hoff' => absurd hoff' hoff⟩
  · rw [hres] at h ⊢
    obtain ⟨hnone, -⟩ | ⟨r', hrange, hcurrent, hnext⟩ := @newLogSegment_cases u'
    · cases hnone.symm.trans h
    · cases hrange.symm.trans h
      exact ⟨hnext, fun _ => hcurrent.trans (frames_started hf).cleanSegList⟩

/-- The clean list has the clean segments, each once; the next one handed out is that named by the ranges before. -/
theorem cleanList_of_run {u v : SegUsage} (hw : WellFormed u) (h : Run step KeepsList u v) :
    (∃ l, Lists v l) ∧
      ∀ cantWait r, (v.getLogTail cantWait).1.range = some r →
        ∀ w, Run step (fun s l => KeepsList s l ∧ ¬HandsOut s l) (v.getLogTail cantWait).2 w →
          ∀ cantWait' r', (w.getLogTail cantWait').1.range = some r' → HandsOut w (.getLogTail cantWait') →
            r'.current = r.nextSeg := by
  refine ⟨(h.invariant (fun _ _ _ hi hk hs => wellFormed_step hi hk hs) hw).lists, ?_⟩
  intro cantWait r hr w hrun cantWait' r' hr' hout
  have hhead : w.checkPoint.cleanSegList = (v.getLogTail cantWait).2.checkPoint.cleanSegList :=
    hrun.invariant (I := fun s => s.checkPoint.cleanSegList = (v.getLogTail cantWait).2.checkPoint.cleanSegList)
      (fun _ _ _ hi hk hs => (step_head hk.2 hs).trans hi) rfl
  rw [(getLogTail_nextSeg hr').2 hout.1, hhead, (getLogTail_nextSeg hr).1]

def threeSegments : SuperBlock := ⟨12, 0, 16384, 3, 1, 1, 341, 4096⟩

def twoClean : SegUsage where
  params := threeSegments
  checkPoint := ⟨8, 2, 0, 4096, 2, -1, 8192, 1, 0⟩
  timeOfLastWrite := 0
  entry := fun i => if i = 0 then ⟨1, 0, true, false⟩ else if i = 1 then ⟨-1, 0, true, false⟩ else ⟨0, 0, false, false⟩
  blockIndex := fun _ => nilDiskAddr

theorem twoClean_wellFormed : WellFormed twoClean := by
  refine ⟨rfl, [0, 1], ⟨rfl, by decide, rfl, by decide, rfl⟩, by decide, fun i => ?_, rfl⟩
  simp only [mem_cons, not_mem_nil, or_false, SuperBlock.validSegmentNum, twoClean, threeSegments]
  constructor
  · rintro (rfl | rfl)
    · decide
    · decide
  · intro hi
    by_cases h0 : i = 0
    · exact .inl h0
    · by_cases h1 : i = 1
      · exact .inr h1
      · rw [if_neg h0, if_neg h1] at hi
        exact absurd hi.2 Bool.false_ne_true

/-- The log moves on to the first of two clean segments, and the one before is cleaned. -/
theorem cleanList_after_clean : ∃ v, Run step KeepsList twoClean v ∧ v.checkPoint.numClean = 2 ∧
    ∃ l, Lists v l := by
  obtain ⟨v, hv⟩ : ∃ v, exec (guarded KeepsList step) twoClean [.getLogTail true, .markSegsClean [2, 2]] = some v :=
    ⟨_, rfl⟩
  have hrun := run_of_guarded _ _ _ hv
  refine ⟨v, hrun, ?_, (cleanList_of_run twoClean_wellFormed hrun).1⟩
  cases hv
  rfl

def noneClean : SegUsage where
  params := threeSegments
  checkPoint := ⟨6, 0, 1, 4096, 2, -1, 8192, 0, -1⟩
  timeOfLastWrite := 0
  entry := fun i => if i = 1 then ⟨0, 0, false, true⟩ else ⟨16384, 0, false, false⟩
  blockIndex := fun _ => nilDiskAddr

/-- With no clean segment left there is no entry to put a cleaned one behind. -/
theorem cleaned_segment_lost : WellFormed noneClean ∧
    ∃ v, Run step (fun _ _ => True) noneClean v ∧ ¬∃ l, Lists v l := by
  refine ⟨⟨rfl, [], rfl, nodup_nil, fun i => ?_, rfl⟩, _,
    run_of_exec [.markSegsClean [1]] _ _ (fun _ _ => trivial) rfl, ?_⟩
  · refine iff_of_false not_mem_nil (fun h => ?_)
    unfold noneClean at h
    simp only at h
    split at h <;> exact absurd h.2 Bool.false_ne_true
  · rintro ⟨l, hl⟩
    have hnil : l = [] := Chain.Links.eq_nil hl.links
    have hone := hl.length
    rw [hnil] at hone
    exact absurd hone (by decide)

end SegUsage

end SpriteKernel.Lfs
