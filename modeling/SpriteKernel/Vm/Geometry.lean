import SpriteKernel.Vm.Grow

/- The address spaces of processes: that page tables do not run into each other, and what a
   segment that has been made larger keeps. -/
namespace SpriteKernel.Vm

open Function List

namespace Params
variable (m : Params) {n k : Int}

theorem tableSize_dvd (n : Int) : m.pageTableInc ∣ m.tableSize n := ⟨_, Int.mul_comm _ _⟩

theorem tableSize_pos_eq (hn : 1 ≤ n) : m.tableSize n = ((n - 1) / m.pageTableInc + 1) * m.pageTableInc := by
  rw [tableSize, Int.tdiv_eq_ediv_of_nonneg (by omega)]

theorem le_tableSize (hn : 0 ≤ n) : n ≤ m.tableSize n := by
  have hinc := m.inc_pos
  rcases Int.lt_or_eq_of_le hn with hpos | rfl
  · rw [m.tableSize_pos_eq hpos]
    have hdiv := Int.lt_ediv_add_one_mul_self (n - 1) hinc
    omega
  · have hq : (0 - 1 : Int).tdiv m.pageTableInc = -((1 : Int).tdiv m.pageTableInc) := by
      rw [← Int.neg_tdiv]
      rfl
    have hle : (1 : Int).tdiv m.pageTableInc ≤ 1 := by
      rw [Int.tdiv_eq_ediv_of_nonneg (by omega)]
      exact Int.ediv_le_self _ (by omega)
    exact Int.mul_nonneg (by omega) (Int.le_of_lt hinc)

theorem tableSize_le (hn : 1 ≤ n) (hle : n ≤ k) (hdvd : m.pageTableInc ∣ k) : m.tableSize n ≤ k := by
  have hinc := m.inc_pos
  rw [m.tableSize_pos_eq hn]
  obtain ⟨c, rfl⟩ := hdvd
  have hlt : (n - 1) / m.pageTableInc < c := by
    rw [Int.ediv_lt_iff_lt_mul hinc]
    rw [Int.mul_comm] at hle
    omega
  rw [Int.mul_comm m.pageTableInc]
  exact Int.mul_le_mul_of_nonneg_right (by omega) (Int.le_of_lt hinc)
end Params

namespace Segment
variable (m : Params) {seg : Segment} {page first last : Int} {new : Space}

/-- A heap's or stack's page table: a multiple of the unit, all pages in it, a stack's up to the end. -/
structure Fits (m : Params) (seg : Segment) : Prop where
  multiple : m.pageTableInc ∣ seg.ptSize
  pages : 0 ≤ seg.numPages ∧ seg.numPages ≤ seg.ptSize
  size : m.tableSize seg.numPages ≤ seg.ptSize
  top : seg.type = .stack → seg.offset + seg.ptSize - 1 = m.lastUserStackPage

variable {m}

/-- Every page of the segment is in its page table. -/
theorem Fits.index (h : Fits m seg) (hlo : seg.firstPage m ≤ page) (hhi : page ≤ seg.lastPage m) :
    0 ≤ page - seg.offset ∧ page - seg.offset < seg.ptSize := by
  obtain ⟨hpos, hle⟩ := h.pages
  rw [lastPage] at hhi
  rw [firstPage] at hlo hhi
  by_cases hstack : seg.type = .stack
  · have htop := h.top hstack
    omega
  · rw [if_neg hstack] at hlo hhi
    omega

theorem vmSegmentNew_fits {type : SegType} (htype : type ≠ .code) {filePtr : Option Nat} {numPages offset : Int} {p : Nat}
    (hpages : 0 ≤ numPages) : Fits m (vmSegmentNew m type filePtr numPages offset p) := by
  simp only [vmSegmentNew, if_neg htype]
  refine ⟨m.tableSize_dvd _, ⟨hpages, m.le_tableSize hpages⟩, Int.le_refl _, fun hstack => ?_⟩
  dsimp only at hstack ⊢
  rw [if_pos hstack]
  omega

theorem validPte_valid (seg : Segment) : seg.validPte.virtRes = true := by
  rw [validPte]
  split
  · rfl
  · rfl
  · rfl

theorem validatePages_pte (seg : Segment) (first last page : Int) :
    (seg.validatePages first last).pte page =
      if first ≤ page ∧ page ≤ last ∧ (seg.pte page).virtRes = false then seg.validPte else seg.pte page := by
  have hpage : page - seg.offset + seg.offset = page := Int.sub_add_cancel _ _
  have hiff : first ≤ page - seg.offset + seg.offset ∧ page - seg.offset + seg.offset ≤ last ∧
      (seg.ptPtr (page - seg.offset)).virtRes = false ↔ first ≤ page ∧ page ≤ last ∧ (seg.pte page).virtRes = false := by
    rw [hpage]
    rfl
  exact if_congr hiff rfl rfl

theorem validatePages_keeps (first last : Int) (hvalid : (seg.pte page).virtRes = true) :
    (seg.validatePages first last).pte page = seg.pte page := by
  rw [validatePages_pte, if_neg]
  rintro ⟨-, -, hnot⟩
  rw [hvalid] at hnot
  nomatch hnot

theorem validatePages_member (hlo : first ≤ page) (hhi : page ≤ last) : ((seg.validatePages first last).pte page).virtRes = true := by
  cases hvalid : (seg.pte page).virtRes with
  | true =>
    rw [validatePages_keeps first last hvalid]
    exact hvalid
  | false =>
    rw [validatePages_pte, if_pos ⟨hlo, hhi, hvalid⟩]
    exact validPte_valid seg

theorem expand_pte (htype : seg.type = .heap ∨ seg.type = .stack)
    (hindex : 0 ≤ page - seg.offset ∧ page - seg.offset < seg.ptSize) : (seg.expand new).pte page = seg.pte page := by
  rcases htype with htype | htype
  · simp only [expand, htype, pte]
    rw [if_pos hindex]
  · simp only [expand, htype, pte]
    rw [if_pos (by omega)]
    congr 1
    omega

theorem expand_type : (seg.expand new).type = seg.type := by
  rw [expand]
  split
  · rfl
  · rfl
  · rfl

theorem expand_ptSize : (seg.expand new).ptSize = new.ptSize := by
  rw [expand]
  split
  · rfl
  · rfl
  · rfl

theorem expand_numPages : (seg.expand new).numPages = seg.numPages := by
  rw [expand]
  split
  · rfl
  · rfl
  · rfl

theorem expand_procList : (seg.expand new).procList = seg.procList := by
  rw [expand]
  split
  · rfl
  · rfl
  · rfl

theorem expand_offset (h : seg.type ≠ .stack) : (seg.expand new).offset = seg.offset := by
  rw [expand]
  split
  · rfl
  · rename_i hstack
    exact absurd hstack h
  · rfl

theorem expand_top (h : seg.type = .stack) : (seg.expand new).offset + (seg.expand new).ptSize = seg.offset + seg.ptSize := by
  simp only [expand, h]
  omega

section grow
variable {newNumPages : Int} {memory : Int → Pte}

theorem grow_type : (seg.grow newNumPages new).type = seg.type := by
  simp only [grow]
  split
  · exact expand_type
  · rfl

theorem grow_procList : (seg.grow newNumPages new).procList = seg.procList := by
  simp only [grow]
  split
  · exact expand_procList
  · rfl

theorem grow_ptSize : (seg.grow newNumPages new).ptSize = if newNumPages > seg.ptSize then new.ptSize else seg.ptSize := by
  simp only [grow]
  split
  · exact expand_ptSize
  · rfl

theorem grow_numPages : (seg.grow newNumPages new).numPages = max seg.numPages newNumPages := by
  simp only [grow]
  split
  · rw [expand_numPages]
  · rfl

theorem grow_offset (h : seg.type ≠ .stack) : (seg.grow newNumPages new).offset = seg.offset := by
  simp only [grow]
  split
  · exact expand_offset h
  · rfl

theorem grow_top (h : seg.type = .stack) :
    (seg.grow newNumPages new).offset + (seg.grow newNumPages new).ptSize = seg.offset + seg.ptSize := by
  simp only [grow]
  split
  · exact expand_top h
  · rfl

theorem grow_pte (htype : seg.type = .heap ∨ seg.type = .stack) (hindex : 0 ≤ page - seg.offset ∧ page - seg.offset < seg.ptSize) :
    (seg.grow newNumPages new).pte page = seg.pte page := by
  simp only [grow]
  split
  · exact expand_pte htype hindex
  · rfl

theorem Fits.grow (h : Fits m seg) : Fits m (seg.grow newNumPages (allocMoreSpace m newNumPages memory)) := by
  obtain ⟨hpos, hle⟩ := h.pages
  have hsize : (seg.grow newNumPages (allocMoreSpace m newNumPages memory)).ptSize =
      if newNumPages > seg.ptSize then m.tableSize newNumPages else seg.ptSize := grow_ptSize
  by_cases hlarger : newNumPages > seg.ptSize
  · rw [if_pos hlarger] at hsize
    have htable := m.le_tableSize (n := newNumPages) (by omega)
    have hmax : max seg.numPages newNumPages = newNumPages := by omega
    refine ⟨?_, ?_, ?_, fun hstack => ?_⟩
    · rw [hsize]
      exact m.tableSize_dvd _
    · rw [grow_numPages, hsize, hmax]
      exact ⟨by omega, htable⟩
    · refine Int.le_of_eq ?_
      rw [grow_numPages, hsize, hmax]
    · rw [grow_type] at hstack
      rw [grow_top hstack]
      exact h.top hstack
  · rw [if_neg hlarger] at hsize
    refine ⟨?_, ?_, ?_, fun hstack => ?_⟩
    · rw [hsize]
      exact h.multiple
    · rw [grow_numPages, hsize]
      omega
    · rw [grow_numPages, hsize]
      rcases Int.lt_or_le seg.numPages newNumPages with hnew | hold
      · exact m.tableSize_le (by omega) (by omega) h.multiple
      · have hmax : max seg.numPages newNumPages = seg.numPages := by omega
        rw [hmax]
        exact h.size
    · rw [grow_type] at hstack
      rw [grow_top hstack]
      exact h.top hstack

theorem Fits.validatePages (h : Fits m seg) (first last : Int) : Fits m (seg.validatePages first last) :=
  ⟨h.multiple, h.pages, h.size, h.top⟩

theorem Fits.widened (h : Fits m seg) (newNumPages : Int) (memory : Int → Pte) (first last : Int) :
    ∃ seg', seg' = (seg.grow newNumPages (allocMoreSpace m newNumPages memory)).validatePages first last ∧ seg'.type = seg.type ∧
      Fits m seg' ∧ (seg.type ≠ .stack → seg'.offset = seg.offset) ∧
      seg'.ptSize = (if newNumPages > seg.ptSize then m.tableSize newNumPages else seg.ptSize) ∧ seg'.procList = seg.procList :=
  ⟨_, rfl, grow_type, h.grow.validatePages first last, grow_offset, grow_ptSize, grow_procList⟩

/-- A page that the segment has. -/
def Member (m : Params) (seg : Segment) (page : Int) : Prop :=
  seg.firstPage m ≤ page ∧ page ≤ seg.lastPage m ∧ (seg.pte page).virtRes = true

/-- `AddToSeg` succeeds: the segment's pages keep their entries, and it has those to be added. -/
structure Grown (m : Params) (first last : Int) (seg seg' : Segment) : Prop where
  keeps : ∀ page, Member m seg page → seg'.pte page = seg.pte page ∧ Member m seg' page
  adds : ∀ page, first ≤ page → page ≤ last → Member m seg' page

/-- The pages between are those of a heap from its offset on, or of a stack from `first` on. -/
def Within (m : Params) (seg : Segment) (first last newNumPages : Int) : Prop :=
  match seg.type with
  | .stack => newNumPages = m.lastUserStackPage - first + 1 ∧ last ≤ m.lastUserStackPage
  | _ => newNumPages = last - seg.offset + 1 ∧ seg.offset ≤ first

theorem grown (h : Fits m seg) (htype : seg.type = .heap ∨ seg.type = .stack) (hwithin : Within m seg first last newNumPages) :
    Grown m first last seg ((seg.grow newNumPages new).validatePages first last) := by
  have hrange : ∀ page, ((seg.grow newNumPages new).validatePages first last).firstPage m ≤ page ∧
      page ≤ ((seg.grow newNumPages new).validatePages first last).lastPage m ↔
        (seg.grow newNumPages new).firstPage m ≤ page ∧ page ≤ (seg.grow newNumPages new).lastPage m := fun _ => Iff.rfl
  have hwide : ∀ page, seg.firstPage m ≤ page → page ≤ seg.lastPage m →
      (seg.grow newNumPages new).firstPage m ≤ page ∧ page ≤ (seg.grow newNumPages new).lastPage m := by
    intro page hlo hhi
    rcases htype with htype | htype
    · simp only [lastPage, firstPage, grow_type, htype, reduceCtorEq, if_false, grow_numPages,
        grow_offset (show seg.type ≠ .stack by rw [htype]; decide)] at hlo hhi ⊢
      omega
    · simp only [lastPage, firstPage, grow_type, htype, if_true, grow_numPages] at hlo hhi ⊢
      omega
  constructor
  · rintro page ⟨hlo, hhi, hvalid⟩
    have hpte : (seg.grow newNumPages new).pte page = seg.pte page := grow_pte htype (h.index hlo hhi)
    have hkept : ((seg.grow newNumPages new).validatePages first last).pte page = seg.pte page := by
      rw [validatePages_keeps first last (by rw [hpte]; exact hvalid), hpte]
    obtain ⟨hlo', hhi'⟩ := (hrange page).2 (hwide page hlo hhi)
    exact ⟨hkept, hlo', hhi', by rw [hkept]; exact hvalid⟩
  · intro page hlo hhi
    have hin : (seg.grow newNumPages new).firstPage m ≤ page ∧ page ≤ (seg.grow newNumPages new).lastPage m := by
      rcases htype with htype | htype
      · simp only [Within, htype] at hwithin
        simp only [lastPage, firstPage, grow_type, htype, reduceCtorEq, if_false, grow_numPages,
          grow_offset (show seg.type ≠ .stack by rw [htype]; decide)]
        omega
      · simp only [Within, htype] at hwithin
        simp only [lastPage, firstPage, grow_type, htype, if_true, grow_numPages]
        omega
    obtain ⟨hlo', hhi'⟩ := (hrange page).2 hin
    exact ⟨hlo', hhi', validatePages_member hlo hhi⟩

end grow

end Segment

open Segment

namespace State
variable {m : Params} {s s' : State} {p q n : Nat} {segs : ProcSegs}

/-- The heap and the stack of a process: their tables are apart. -/
structure Apart (m : Params) (heap stack : Segment) : Prop where
  heapType : heap.type = .heap
  heapFits : Fits m heap
  stackType : stack.type = .stack
  stackFits : Fits m stack
  below : heap.offset + heap.ptSize - 1 < stack.offset

/-- What holds of all processes. Those that have a stack in common (after a vfork) have the heap
    in common too. -/
structure Inv (m : Params) (s : State) : Prop where
  apart : ∀ p, ∀ segs ∈ s.procs p, Apart m (s.segs segs.heap) (s.segs segs.stack)
  listed : ∀ p, ∀ segs ∈ s.procs p, p ∈ (s.segs segs.heap).procList
  shared : ∀ p q, ∀ segs ∈ s.procs p, ∀ segs' ∈ s.procs q, segs.stack = segs'.stack → segs.heap = segs'.heap

def SameTable (seg seg' : Segment) : Prop :=
  seg'.type = seg.type ∧ seg'.offset = seg.offset ∧ seg'.ptSize = seg.ptSize ∧ seg'.numPages = seg.numPages

theorem SameTable.refl (seg : Segment) : SameTable seg seg := ⟨rfl, rfl, rfl, rfl⟩

theorem SameTable.fits {seg seg' : Segment} (h : SameTable seg seg') (hfits : Fits m seg) : Fits m seg' := by
  obtain ⟨htype, hoff, hsize, hpages⟩ := h
  refine ⟨?_, ?_, ?_, ?_⟩
  · rw [hsize]
    exact hfits.multiple
  · rw [hsize, hpages]
    exact hfits.pages
  · rw [hsize, hpages]
    exact hfits.size
  · rw [htype, hoff, hsize]
    exact hfits.top

theorem Apart.congr {heap heap' stack stack' : Segment} (h : Apart m heap stack) (hheap : SameTable heap heap')
    (hstack : SameTable stack stack') : Apart m heap' stack' := by
  refine ⟨hheap.1.trans h.heapType, hheap.fits h.heapFits, hstack.1.trans h.stackType, hstack.fits h.stackFits, ?_⟩
  rw [hheap.2.1, hheap.2.2.1, hstack.2.1]
  exact h.below

variable {heapPages offset : Int}

theorem vmSegmentNew_apart {filePtr filePtr' : Option Nat} {stackPages offset' : Int} (hheap : 0 ≤ heapPages)
    (hstack : 0 ≤ stackPages) (hbelow : offset + m.tableSize heapPages - 1 < m.lastUserStackPage - m.tableSize stackPages + 1) :
    Apart m (vmSegmentNew m .heap filePtr heapPages offset p) (vmSegmentNew m .stack filePtr' stackPages offset' q) :=
  ⟨rfl, vmSegmentNew_fits (by decide) hheap, rfl, vmSegmentNew_fits (by decide) hstack, hbelow⟩

section leave

theorem leave_table (p n : Nat) : SameTable (s.segs n) ((s.leave p).segs n) := by
  rw [leave]
  split
  · exact .refl _
  · dsimp only
    split
    · exact ⟨rfl, rfl, rfl, rfl⟩
    · exact .refl _

theorem leave_procs (p q : Nat) : (s.leave p).procs q = if q = p then none else s.procs q := by
  rw [leave]
  split
  · rename_i hnone
    split
    · rename_i heq
      rw [heq, hnone]
    · rfl
  · exact update_apply _ _ _ _

theorem leave_list (hne : q ≠ p) (hq : q ∈ (s.segs n).procList) : q ∈ ((s.leave p).segs n).procList := by
  rw [leave]
  split
  · exact hq
  · dsimp only
    split
    · exact (mem_erase_of_ne hne).2 hq
    · exact hq

theorem Inv.leave (h : Inv m s) (p : Nat) : Inv m (s.leave p) := by
  have hwas : ∀ q, ∀ segs ∈ (s.leave p).procs q, q ≠ p ∧ segs ∈ s.procs q := by
    intro q segs hq
    rw [leave_procs] at hq
    by_cases heq : q = p
    · rw [if_pos heq] at hq
      nomatch hq
    · rw [if_neg heq] at hq
      exact ⟨heq, hq⟩
  refine ⟨fun q segs hq => ?_, fun q segs hq => ?_, fun q r segs hq segs' hr hstack => ?_⟩
  · exact (h.apart q segs (hwas q segs hq).2).congr (leave_table p _) (leave_table p _)
  · obtain ⟨hne, hq'⟩ := hwas q segs hq
    exact leave_list hne (h.listed q segs hq')
  · exact h.shared q r segs (hwas q segs hq).2 segs' (hwas r segs' hr).2 hstack

end leave

section join
variable {c : Nat} {new : ProcSegs}

/-- A process has got segments, and the others have kept theirs. -/
theorem Inv.join (h : Inv m s) (hothers : ∀ q, q ≠ c → s'.procs q = s.procs q) (hnew : s'.procs c = some new)
    (htable : ∀ q, q ≠ c → ∀ segs ∈ s.procs q, SameTable (s.segs segs.heap) (s'.segs segs.heap) ∧
      SameTable (s.segs segs.stack) (s'.segs segs.stack) ∧ (q ∈ (s.segs segs.heap).procList → q ∈ (s'.segs segs.heap).procList))
    (hapart : Apart m (s'.segs new.heap) (s'.segs new.stack)) (hlisted : c ∈ (s'.segs new.heap).procList)
    (hshared : ∀ q, q ≠ c → ∀ segs ∈ s.procs q, segs.stack = new.stack → segs.heap = new.heap) : Inv m s' := by
  have hcase : ∀ q, ∀ segs ∈ s'.procs q, q = c ∧ segs = new ∨ q ≠ c ∧ segs ∈ s.procs q := by
    intro q segs hq
    by_cases heq : q = c
    · rw [heq, hnew] at hq
      exact .inl ⟨heq, (Option.some.inj hq).symm⟩
    · rw [hothers q heq] at hq
      exact .inr ⟨heq, hq⟩
  refine ⟨fun q segs hq => ?_, fun q segs hq => ?_, fun q r segs hq segs' hr hstack => ?_⟩
  · rcases hcase q segs hq with ⟨-, rfl⟩ | ⟨hne, hq⟩
    · exact hapart
    · obtain ⟨hheap, hstack, -⟩ := htable q hne segs hq
      exact (h.apart q segs hq).congr hheap hstack
  · rcases hcase q segs hq with ⟨rfl, rfl⟩ | ⟨hne, hq⟩
    · exact hlisted
    · exact (htable q hne segs hq).2.2 (h.listed q segs hq)
  · rcases hcase q segs hq with ⟨-, rfl⟩ | ⟨hne, hq⟩
    · rcases hcase r segs' hr with ⟨-, rfl⟩ | ⟨hne', hr⟩
      · rfl
      · exact (hshared r hne' segs' hr hstack.symm).symm
    · rcases hcase r segs' hr with ⟨-, rfl⟩ | ⟨hne', hr⟩
      · exact hshared q hne segs hq hstack
      · exact h.shared q r segs hq segs' hr hstack

theorem setSeg_same (n : Nat) (seg : Segment) : (s.setSeg n seg).segs n = seg := update_self _ _ _

theorem setSeg_ne {n' : Nat} (h : n' ≠ n) (seg : Segment) : (s.setSeg n seg).segs n' = s.segs n' := update_of_ne h _ _

end join

/-- The new heap and stack of an exec are below each other. -/
def ImageFits (m : Params) (heapPages heapPageOffset : Int) : Prop :=
  heapPageOffset + m.tableSize heapPages - 1 < m.lastUserStackPage - m.tableSize 1 + 1

variable {filePtr heap stack : Nat}

theorem exec_segs (hne : heap ≠ stack) :
    (s.exec m p filePtr heapPages offset heap stack).segs heap = vmSegmentNew m .heap (some filePtr) heapPages offset p ∧
      (s.exec m p filePtr heapPages offset heap stack).segs stack = vmSegmentNew m .stack none 1 m.lastUserStackPage p := by
  constructor
  · show (setSeg _ _ _).segs heap = _
    rw [setSeg_ne hne, setSeg_same]
  · show (setSeg _ _ _).segs stack = _
    rw [setSeg_same]

theorem exec_apart (hne : heap ≠ stack) (hpages : 0 ≤ heapPages)
    (hfits : ImageFits m heapPages offset) :
    Apart m ((s.exec m p filePtr heapPages offset heap stack).segs heap)
      ((s.exec m p filePtr heapPages offset heap stack).segs stack) := by
  obtain ⟨hheap, hstack⟩ := exec_segs (m := m) (s := s) (p := p) hne
  rw [hheap, hstack]
  exact vmSegmentNew_apart hpages (by omega) hfits

theorem Inv.exec (h : Inv m s) (hheap : s.Free heap) (hstack : s.Free stack)
    (hne : heap ≠ stack) (hpages : 0 ≤ heapPages) (hfits : ImageFits m heapPages offset) :
    Inv m (s.exec m p filePtr heapPages offset heap stack) := by
  have hold : ∀ q, q ≠ p → ∀ segs ∈ (s.leave p).procs q, segs ∈ s.procs q := by
    intro q hq segs hsegs
    rw [leave_procs, if_neg hq] at hsegs
    exact hsegs
  have hkeep : ∀ n, n ≠ heap → n ≠ stack → (s.exec m p filePtr heapPages offset heap stack).segs n = (s.leave p).segs n := by
    intro n h₁ h₂
    show (setSeg _ _ _).segs n = _
    rw [setSeg_ne h₂, setSeg_ne h₁]
  refine (h.leave p).join (c := p) (fun q hq => update_of_ne hq _ _) (update_self _ _ _) ?_ (exec_apart hne hpages hfits) ?_ ?_
  · intro q hq segs hsegs
    have hfree := hheap q segs (hold q hq segs hsegs)
    have hfree' := hstack q segs (hold q hq segs hsegs)
    rw [hkeep _ hfree.1 hfree'.1, hkeep _ hfree.2 hfree'.2]
    exact ⟨.refl _, .refl _, fun hlist => hlist⟩
  · rw [(exec_segs hne).1]
    exact mem_singleton.2 rfl
  · intro q hq segs hsegs heq
    exact absurd heq (hstack q segs (hold q hq segs hsegs)).2

/-- A segment of which the table has not moved, and that no process has given up. -/
def Kept (s s' : State) (n : Nat) : Prop :=
  SameTable (s.segs n) (s'.segs n) ∧ ∀ q ∈ (s.segs n).procList, q ∈ (s'.segs n).procList

theorem Kept.refl (s : State) (n : Nat) : Kept s s n := ⟨.refl _, fun _ hq => hq⟩

theorem Kept.trans {s'' : State} (h : Kept s s' n) (h' : Kept s' s'' n) : Kept s s'' n := by
  obtain ⟨⟨h₁, h₂, h₃, h₄⟩, hlist⟩ := h
  obtain ⟨⟨h₁', h₂', h₃', h₄'⟩, hlist'⟩ := h'
  exact ⟨⟨h₁'.trans h₁, h₂'.trans h₂, h₃'.trans h₃, h₄'.trans h₄⟩, fun q hq => hlist' q (hlist q hq)⟩

theorem incRef_kept (s : State) (k c n : Nat) : Kept s (s.incRef k c) n := by
  by_cases heq : n = k
  · subst heq
    rw [Kept, incRef, setSeg_same]
    exact ⟨⟨rfl, rfl, rfl, rfl⟩, fun q hq => mem_cons_of_mem _ hq⟩
  · rw [Kept, incRef, setSeg_ne heq]
    exact Kept.refl s n

theorem incRef_listed (s : State) (k c : Nat) : c ∈ ((s.incRef k c).segs k).procList := by
  rw [incRef, setSeg_same]
  exact mem_cons_self

theorem setSeg_kept {k : Nat} (h : n ≠ k) (seg : Segment) : Kept s (s.setSeg k seg) n := by
  rw [Kept, setSeg_ne h]
  exact Kept.refl s n

theorem dup_apart {heap stack heap' stack' : Segment} (h : Apart m heap stack)
    (hheap : SameTable heap heap' ∨ heap' = vmSegmentDup m heap p) (hstack : SameTable stack stack' ∨ stack' = vmSegmentDup m stack p) :
    Apart m heap' stack' := by
  have hheap' : heap'.type = .heap ∧ Fits m heap' ∧ heap'.offset = heap.offset ∧ heap'.ptSize ≤ heap.ptSize := by
    rcases hheap with hsame | rfl
    · exact ⟨hsame.1.trans h.heapType, hsame.fits h.heapFits, hsame.2.1, Int.le_of_eq hsame.2.2.1⟩
    · rw [vmSegmentDup, h.heapType]
      exact ⟨rfl, vmSegmentNew_fits (by decide) h.heapFits.pages.1, rfl, h.heapFits.size⟩
  have hstack' : stack'.type = .stack ∧ Fits m stack' ∧ stack'.ptSize ≤ stack.ptSize := by
    rcases hstack with hsame | rfl
    · exact ⟨hsame.1.trans h.stackType, hsame.fits h.stackFits, Int.le_of_eq hsame.2.2.1⟩
    · rw [vmSegmentDup, h.stackType]
      exact ⟨rfl, vmSegmentNew_fits (by decide) h.stackFits.pages.1, h.stackFits.size⟩
  obtain ⟨htype, hfits, hoff, hsize⟩ := hheap'
  obtain ⟨htype', hfits', hsize'⟩ := hstack'
  have htop := h.stackFits.top h.stackType
  have htop' := hfits'.top htype'
  have hbelow := h.below
  exact ⟨htype, hfits, htype', hfits', by omega⟩

theorem Inv.fork (h : Inv m s) {parent : ProcSegs} (hp : parent ∈ s.procs p) {c : Nat}
    (hheap : s.Free heap) (hstack : s.Free stack) (hne : heap ≠ stack) (shareHeap vforkFlag : Bool) :
    Inv m (s.fork m parent c shareHeap vforkFlag heap stack) := by
  have hparent := h.apart p parent hp
  have hdiff : parent.heap ≠ parent.stack := by
    intro heq
    have htype := hparent.heapType
    rw [heq, hparent.stackType] at htype
    nomatch htype
  obtain ⟨hfree₁, hfree₂⟩ := hheap p parent hp
  obtain ⟨hfree₃, hfree₄⟩ := hstack p parent hp
  obtain ⟨s₁, hs₁⟩ : ∃ s₁, s₁ =
      if vforkFlag then s.incRef parent.stack c else s.setSeg stack (vmSegmentDup m (s.segs parent.stack) c) := ⟨_, rfl⟩
  obtain ⟨s₂, hs₂⟩ : ∃ s₂, s₂ = if shareHeap || vforkFlag then s₁.incRef parent.heap c else
      s₁.setSeg heap (vmSegmentDup m (s₁.segs parent.heap) c) := ⟨_, rfl⟩
  have hfork : s.fork m parent c shareHeap vforkFlag heap stack =
      { s₂ with
        procs := update s₂.procs c
          (some ⟨if shareHeap || vforkFlag then parent.heap else heap, if vforkFlag then parent.stack else stack⟩) } := by
    rw [hs₂, hs₁]
    rfl
  have hprocs : s₂.procs = s.procs := by
    rw [hs₂, hs₁]
    cases shareHeap <;> cases vforkFlag <;> rfl
  have hkept₁ : ∀ n, n ≠ stack → Kept s s₁ n := by
    intro n hn
    rw [hs₁]
    cases vforkFlag with
    | true => exact incRef_kept s _ _ n
    | false => exact setSeg_kept hn _
  have hkept₂ : ∀ n, n ≠ heap → Kept s₁ s₂ n := by
    intro n hn
    rw [hs₂]
    cases shareHeap || vforkFlag with
    | true => exact incRef_kept s₁ _ _ n
    | false => exact setSeg_kept hn _
  have hstack' : SameTable (s.segs parent.stack) (s₂.segs (if vforkFlag then parent.stack else stack)) ∨
      s₂.segs (if vforkFlag then parent.stack else stack) = vmSegmentDup m (s.segs parent.stack) c := by
    cases vforkFlag with
    | true => exact .inl ((hkept₁ _ hfree₄).trans (hkept₂ _ hfree₂)).1
    | false =>
      right
      have hsame : s₁.segs stack = vmSegmentDup m (s.segs parent.stack) c := by
        rw [hs₁]
        exact setSeg_same _ _
      rw [← hsame, hs₂]
      cases shareHeap with
      | true => exact setSeg_ne (Ne.symm hfree₃) _
      | false => exact setSeg_ne (Ne.symm hne) _
  have hheap' : SameTable (s.segs parent.heap) (s₂.segs (if shareHeap || vforkFlag then parent.heap else heap)) ∨
      s₂.segs (if shareHeap || vforkFlag then parent.heap else heap) = vmSegmentDup m (s.segs parent.heap) c := by
    cases hshare : shareHeap || vforkFlag with
    | true => exact .inl ((hkept₁ _ hfree₃).trans (hkept₂ _ hfree₁)).1
    | false =>
      right
      have hsame : s₁.segs parent.heap = s.segs parent.heap := by
        rw [hs₁]
        cases hv : vforkFlag with
        | true => exact setSeg_ne hdiff _
        | false => exact setSeg_ne hfree₃ _
      rw [hs₂, hshare, ← hsame]
      exact setSeg_same _ _
  rw [hfork]
  refine h.join (c := c) (fun q hq => ?_) (update_self _ _ _) (fun q hq segs hsegs => ?_) (dup_apart hparent hheap' hstack') ?_ ?_
  · exact (update_of_ne hq _ _).trans (congrFun hprocs q)
  · obtain ⟨hf₁, hf₂⟩ := hheap q segs hsegs
    obtain ⟨hf₃, hf₄⟩ := hstack q segs hsegs
    obtain ⟨htable, hlist⟩ := (hkept₁ _ hf₃).trans (hkept₂ _ hf₁)
    exact ⟨htable, ((hkept₁ _ hf₄).trans (hkept₂ _ hf₂)).1, hlist q⟩
  · rw [hs₂]
    cases shareHeap || vforkFlag with
    | true => exact incRef_listed s₁ _ _
    | false =>
      rw [if_neg Bool.false_ne_true, if_neg Bool.false_ne_true, setSeg_same]
      exact mem_singleton.2 rfl
  · intro q hq segs hsegs heq
    cases hv : vforkFlag with
    | true =>
      rw [hv] at heq
      simp only [Bool.or_true, if_true] at heq ⊢
      exact h.shared q p segs hsegs parent hp heq
    | false =>
      rw [hv] at heq
      exact absurd heq (hstack q segs hsegs).2

variable {first last : Int}

theorem addToSeg_cases {newNumPages : Int} {new : Space} :
    (s.addToSeg m p n first last newNumPages new = (.segTooLarge, s)) ∨
      (newNumPages > (s.segs n).ptSize → ¬ s.collides m p n new.ptSize) ∧
        s.addToSeg m p n first last newNumPages new =
          (.success, s.setSeg n (((s.segs n).grow newNumPages new).validatePages first last)) := by
  rw [addToSeg]
  split
  · exact .inl rfl
  · rename_i hnot
    exact .inr ⟨fun hlarger hcollides => hnot ⟨hlarger, hcollides⟩, rfl⟩

section growth
variable {first last newNumPages : Int} {memory : Int → Pte}

/-- The heap of a process has been made larger, below the stacks of all that share it. -/
theorem Inv.growHeap (h : Inv m s) (hp : segs ∈ s.procs p)
    (hroom : newNumPages > (s.segs segs.heap).ptSize → ¬ s.collides m p segs.heap (m.tableSize newNumPages)) :
    Inv m (s.setSeg segs.heap (((s.segs segs.heap).grow newNumPages (allocMoreSpace m newNumPages memory)).validatePages first last)) := by
  have hmine := h.apart p segs hp
  obtain ⟨seg', hseg', htype, hfits, hoff, hsize, hlist⟩ := hmine.heapFits.widened newNumPages memory first last
  rw [hmine.heapType] at htype
  replace hoff := hoff (by rw [hmine.heapType]; decide)
  rw [← hseg']
  have hstack : ∀ q, ∀ segsq ∈ s.procs q, segsq.stack ≠ segs.heap := by
    intro q segsq hq heq
    have hst := (h.apart q segsq hq).stackType
    rw [heq, hmine.heapType] at hst
    nomatch hst
  refine ⟨fun q segsq hq => ?_, fun q segsq hq => ?_, h.shared⟩
  · have hq' := h.apart q segsq hq
    rw [setSeg_ne (hstack q segsq hq)]
    by_cases heq : segsq.heap = segs.heap
    · rw [heq, setSeg_same]
      have hbelow := hq'.below
      refine ⟨htype, hfits, hq'.stackType, hq'.stackFits, ?_⟩
      rw [heq] at hbelow
      rw [hoff, hsize]
      split
      · rename_i hlarger
        have hnot := hroom hlarger
        simp only [collides, hmine.heapType, not_exists, not_and] at hnot
        have hclear := hnot q (heq ▸ h.listed q segsq hq) segsq hq
        omega
      · exact hbelow
    · rw [setSeg_ne heq]
      exact hq'
  · have hq' := h.listed q segsq hq
    by_cases heq : segsq.heap = segs.heap
    · rw [heq, setSeg_same, hlist]
      rw [heq] at hq'
      exact hq'
    · rw [setSeg_ne heq]
      exact hq'

/-- A process's stack has been made larger, down to the heap in common with all that share the stack. -/
theorem Inv.growStack (h : Inv m s) (hp : segs ∈ s.procs p)
    (hroom : newNumPages > (s.segs segs.stack).ptSize → ¬ s.collides m p segs.stack (m.tableSize newNumPages)) :
    Inv m (s.setSeg segs.stack (((s.segs segs.stack).grow newNumPages (allocMoreSpace m newNumPages memory)).validatePages first last)) := by
  have hmine := h.apart p segs hp
  obtain ⟨seg', hseg', htype, hfits, -, hsize, -⟩ := hmine.stackFits.widened newNumPages memory first last
  rw [hmine.stackType] at htype
  rw [← hseg']
  have hheap : ∀ q, ∀ segsq ∈ s.procs q, segsq.heap ≠ segs.stack := by
    intro q segsq hq heq
    have hty := (h.apart q segsq hq).heapType
    rw [heq, hmine.stackType] at hty
    nomatch hty
  refine ⟨fun q segsq hq => ?_, fun q segsq hq => ?_, h.shared⟩
  · have hq' := h.apart q segsq hq
    rw [setSeg_ne (hheap q segsq hq)]
    by_cases heq : segsq.stack = segs.stack
    · have hcommon : segsq.heap = segs.heap := h.shared q p segsq hq segs hp heq
      rw [heq, setSeg_same]
      refine ⟨hq'.heapType, hq'.heapFits, htype, hfits, ?_⟩
      have htop := hfits.top htype
      have htop' := hmine.stackFits.top hmine.stackType
      have hbelow := hmine.below
      rw [hcommon]
      rw [hsize] at htop
      split at htop
      · rename_i hlarger
        have hnot := hroom hlarger
        simp only [collides, hmine.stackType, not_exists, not_and] at hnot
        have hclear := hnot segs hp
        omega
      · omega
    · rw [setSeg_ne heq]
      exact hq'
  · rw [setSeg_ne (hheap q segsq hq)]
    exact h.listed q segsq hq

end growth

/-- What a call of `VmAddToSeg` for a heap from some page on, or for a stack down to some page,
    comes to. -/
structure AddsOrRefuses (m : Params) (s : State) (n : Nat) (first last : Int) (r : Status × State) : Prop where
  adds : r.1 = .success → Grown m first last (s.segs n) (r.2.segs n)
  refuses : r.1 = .segTooLarge → r.2 = s
  status : r.1 = .success ∨ r.1 = .segTooLarge

theorem vmAddToSeg_heap (h : Inv m s) (hp : segs ∈ s.procs p) (hfirst : (s.segs segs.heap).offset ≤ first)
    (memory : Int → Pte) :
    Inv m (s.vmAddToSeg m p segs.heap first last memory).2 ∧
      AddsOrRefuses m s segs.heap first last (s.vmAddToSeg m p segs.heap first last memory) := by
  have hmine := h.apart p segs hp
  have hcall : s.vmAddToSeg m p segs.heap first last memory =
      s.addToSeg m p segs.heap first last (last - (s.segs segs.heap).offset + 1)
        (allocMoreSpace m (last - (s.segs segs.heap).offset + 1) memory) := by
    simp only [vmAddToSeg, hmine.heapType]
  rw [hcall]
  rcases addToSeg_cases with heq | ⟨hroom, heq⟩
  · rw [heq]
    exact ⟨h, ⟨nofun, fun _ => rfl, .inr rfl⟩⟩
  · rw [heq]
    refine ⟨h.growHeap hp hroom, ⟨fun _ => ?_, nofun, .inl rfl⟩⟩
    rw [setSeg_same]
    refine grown hmine.heapFits (.inl hmine.heapType) ?_
    simp only [Within, hmine.heapType]
    exact ⟨trivial, hfirst⟩

theorem vmAddToSeg_stack (h : Inv m s) (hp : segs ∈ s.procs p) (hlast : last ≤ m.lastUserStackPage)
    (memory : Int → Pte) :
    Inv m (s.vmAddToSeg m p segs.stack first last memory).2 ∧
      AddsOrRefuses m s segs.stack first last (s.vmAddToSeg m p segs.stack first last memory) := by
  have hmine := h.apart p segs hp
  have hcall : s.vmAddToSeg m p segs.stack first last memory =
      s.addToSeg m p segs.stack first last (m.lastUserStackPage - first + 1)
        (allocMoreSpace m (m.lastUserStackPage - first + 1) memory) := by
    simp only [vmAddToSeg, hmine.stackType]
  rw [hcall]
  rcases addToSeg_cases with heq | ⟨hroom, heq⟩
  · rw [heq]
    exact ⟨h, ⟨nofun, fun _ => rfl, .inr rfl⟩⟩
  · rw [heq]
    refine ⟨h.growStack hp hroom, ⟨fun _ => ?_, nofun, .inl rfl⟩⟩
    rw [setSeg_same]
    refine grown hmine.stackFits (.inr hmine.stackType) ?_
    simp only [Within, hmine.stackType]
    exact ⟨trivial, hlast⟩

/-- Execs of images that fit, forks, growth and exits, while page faults and the like change page table entries. -/
inductive Run (m : Params) : State → Prop
  | boot {s : State} : (∀ p, s.procs p = none) → Run m s
  | exec {s : State} {p filePtr heap stack : Nat} {heapPages offset : Int} : Run m s → s.Free heap → s.Free stack → heap ≠ stack →
      0 ≤ heapPages → ImageFits m heapPages offset → Run m (s.exec m p filePtr heapPages offset heap stack)
  | fork {s : State} {p c heap stack : Nat} {parent : ProcSegs} {shareHeap vforkFlag : Bool} : Run m s → parent ∈ s.procs p →
      s.procs c = none → s.Free heap → s.Free stack → heap ≠ stack → Run m (s.fork m parent c shareHeap vforkFlag heap stack)
  | growHeap {s : State} {p : Nat} {segs : ProcSegs} {first last : Int} {memory : Int → Pte} : Run m s → segs ∈ s.procs p →
      (s.segs segs.heap).offset ≤ first → Run m (s.vmAddToSeg m p segs.heap first last memory).2
  | growStack {s : State} {p : Nat} {segs : ProcSegs} {first last : Int} {memory : Int → Pte} : Run m s → segs ∈ s.procs p →
      last ≤ m.lastUserStackPage → Run m (s.vmAddToSeg m p segs.stack first last memory).2
  | paged {s : State} {n : Nat} {ptPtr : Int → Pte} : Run m s → Run m (s.setSeg n { s.segs n with ptPtr := ptPtr })
  | exit {s : State} {p : Nat} : Run m s → Run m (s.leave p)

theorem Inv.paged (h : Inv m s) (ptPtr : Int → Pte) : Inv m (s.setSeg n { s.segs n with ptPtr := ptPtr }) := by
  have hkept : ∀ k, Kept s (s.setSeg n { s.segs n with ptPtr := ptPtr }) k := by
    intro k
    by_cases heq : k = n
    · subst heq
      rw [Kept, setSeg_same]
      exact ⟨⟨rfl, rfl, rfl, rfl⟩, fun _ hq => hq⟩
    · exact setSeg_kept heq _
  exact ⟨fun p segs hp => (h.apart p segs hp).congr (hkept _).1 (hkept _).1, fun p segs hp => (hkept _).2 p (h.listed p segs hp), h.shared⟩

theorem Run.inv (h : Run m s) : Inv m s := by
  induction h with
  | boot hnone =>
    refine ⟨fun p segs hp => ?_, fun p segs hp => ?_, fun p q segs hp => ?_⟩
    · rw [hnone p] at hp
      nomatch hp
    · rw [hnone p] at hp
      nomatch hp
    · rw [hnone p] at hp
      nomatch hp
  | exec _ hheap hstack hne hpages hfits ih => exact ih.exec hheap hstack hne hpages hfits
  | fork _ hp _ hheap hstack hne ih => exact ih.fork hp hheap hstack hne _ _
  | growHeap _ hp hfirst ih => exact (vmAddToSeg_heap ih hp hfirst _).1
  | growStack _ hp hlast ih => exact (vmAddToSeg_stack ih hp hlast _).1
  | paged _ ih => exact ih.paged _
  | exit _ ih => exact ih.leave _

/-- The heap ends below the stack, the stack's table with the last page, and every page has its entry. -/
structure Geometry (m : Params) (heap stack : Segment) : Prop where
  below : heap.offset + heap.ptSize - 1 < stack.offset
  top : stack.offset + stack.ptSize - 1 = m.lastUserStackPage
  heapIndex : ∀ page, heap.offset ≤ page → page < heap.offset + heap.numPages → 0 ≤ page - heap.offset ∧ page - heap.offset < heap.ptSize
  stackIndex : ∀ page, m.lastUserStackPage - stack.numPages < page → page ≤ m.lastUserStackPage →
    0 ≤ page - stack.offset ∧ page - stack.offset < stack.ptSize

theorem Apart.geometry {heap stack : Segment} (h : Apart m heap stack) : Geometry m heap stack := by
  have hheap := h.heapFits.pages
  have hstack := h.stackFits.pages
  have htop := h.stackFits.top h.stackType
  refine ⟨h.below, htop, fun page hlo hhi => ?_, fun page hlo hhi => ?_⟩
  · omega
  · omega

/-- **The address spaces of all processes keep their geometry** where an exec's heap fits below the new stack. -/
theorem geometry_kept (h : Run m s) :
    (∀ p, ∀ segs ∈ s.procs p, Geometry m (s.segs segs.heap) (s.segs segs.stack)) ∧
      (∀ p, ∀ segs ∈ s.procs p, ∀ (first last : Int) (memory : Int → Pte), (s.segs segs.heap).offset ≤ first →
        AddsOrRefuses m s segs.heap first last (s.vmAddToSeg m p segs.heap first last memory)) ∧
        (∀ p, ∀ segs ∈ s.procs p, ∀ (first last : Int) (memory : Int → Pte), last ≤ m.lastUserStackPage →
          AddsOrRefuses m s segs.stack first last (s.vmAddToSeg m p segs.stack first last memory)) ∧
          ∀ (p filePtr : Nat) (heapPages offset : Int) (heap stack : Nat), heap ≠ stack → 0 ≤ heapPages →
            (Geometry m ((s.exec m p filePtr heapPages offset heap stack).segs heap)
                ((s.exec m p filePtr heapPages offset heap stack).segs stack) ↔ ImageFits m heapPages offset) := by
  have hinv := h.inv
  refine ⟨fun p segs hp => (hinv.apart p segs hp).geometry, fun p segs hp first last memory hfirst => ?_,
    fun p segs hp first last memory hlast => ?_, fun p filePtr heapPages offset heap stack hne hpages => ⟨fun hgeom => ?_, fun hfits => ?_⟩⟩
  · exact (vmAddToSeg_heap hinv hp hfirst memory).2
  · exact (vmAddToSeg_stack hinv hp hlast memory).2
  · have hbelow := hgeom.below
    obtain ⟨hheap, hstack⟩ := exec_segs (m := m) (s := s) (p := p) hne
    rw [hheap, hstack] at hbelow
    exact hbelow
  · exact (exec_apart hne hpages hfits).geometry

/-- An address space of 101 pages, with page tables of ten entries and more. -/
def smallSpace : Params := ⟨100, 10, by decide⟩

/-- The state before the first process. -/
def booted : State := ⟨fun _ => vmSegmentNew smallSpace .code none 0 0 0, fun _ => none⟩

theorem geometry_kept_small :
    Run smallSpace (booted.exec smallSpace 1 0 12 10 1 2) ∧
      Geometry smallSpace ((booted.exec smallSpace 1 0 12 10 1 2).segs 1) ((booted.exec smallSpace 1 0 12 10 1 2).segs 2) := by
  have hrun : Run smallSpace (booted.exec smallSpace 1 0 12 10 1 2) :=
    .exec (.boot fun _ => rfl) (fun _ _ h => nomatch h) (fun _ _ h => nomatch h) (by decide) (by decide)
      (show (10 : Int) + smallSpace.tableSize 12 - 1 < 100 - smallSpace.tableSize 1 + 1 by decide)
  exact ⟨hrun, (geometry_kept hrun).1 1 ⟨1, 2⟩ rfl⟩

/-- The heap of an image that is too large runs into the stack: an exec does not look. -/
theorem image_runs_into_stack :
    booted.Free 1 ∧ booted.Free 2 ∧
      ¬ Geometry smallSpace ((booted.exec smallSpace 1 0 95 10 1 2).segs 1) ((booted.exec smallSpace 1 0 95 10 1 2).segs 2) := by
  refine ⟨fun _ _ h => (nomatch h), fun _ _ h => (nomatch h), fun h => ?_⟩
  have hbelow := h.below
  exact absurd hbelow (by decide)

end State

end SpriteKernel.Vm
