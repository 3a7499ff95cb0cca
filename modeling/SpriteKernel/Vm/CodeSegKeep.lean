import SpriteKernel.Lib.Custody
import SpriteKernel.Vm.CodeSeg

/- Where a segment table entry is, and how files and code segments are associated. A step moves one
   segment (`Placed.change`), and leaves the association alone or changes it for one file. -/
namespace SpriteKernel.Vm

open Function
open Custody

/-- Where a segment can be that no process shares: on a list, or in the hands of a process. -/
inductive SegPlace where
  | on (l : SegList)
  | hand (p : Nat)
  deriving DecidableEq

namespace SegTable

def kept (s : SegTable) : SegPlace → List Nat
  | .on l => s.lists l
  | .hand p => (s.act p).hand

structure Placed (P : SegParams) (s : SegTable) : Prop where
  apart : Apart s.kept
  range : ∀ q n, n ∈ s.kept q → 0 < n ∧ n < P.numSegments
  idle : ∀ q n, n ∈ s.kept q → (s.seg n).procList = []
  shared : ∀ n, 0 < n → n < P.numSegments → (∀ q, n ∉ s.kept q) →
    (s.seg n).procList ≠ [] ∧ (s.seg n).inactive = false
  flagged : ∀ n, n ∈ s.lists .inactive → (s.seg n).inactive = true
  counted : ∀ n, 0 < n → (s.seg n).refCount = (s.seg n).procList.length

end SegTable

/-- The segments whose `DeleteSeg` is done. -/
def Act.clean : Act → List Nat
  | .recycling _ _ n true | .deleting n true => [n]
  | .recycling _ _ _ false | .deleting _ false | .none | .sleeping _ _ | .draining _ => []

namespace SegTable

/-- Segments that have no file. -/
def Loose (s : SegTable) (n : Nat) : Prop := n ∈ s.lists .free ∨ n ∈ s.lists .dead ∨ ∃ p, n ∈ (s.act p).clean

structure Linked (P : SegParams) (s : SegTable) : Prop where
  /-- The file of a segment points back to it. -/
  linked : ∀ n h, 0 < n → (s.seg n).fileHandle = some h → s.segPtr h = .seg n
  back : ∀ h n, s.segPtr h = .seg n → 0 < n ∧ n < P.numSegments ∧ (s.seg n).fileHandle = some h
  loose : ∀ n, s.Loose n → (s.seg n).fileHandle = none
  /-- One process sets a file up. -/
  settingUp : ∀ p h, s.setup p = some h → s.segPtr h = .settingUp
  one : ∀ p q h, s.setup p = some h → s.setup q = some h → p = q
  owned : ∀ h, s.segPtr h = .settingUp → ∃ p, s.setup p = some h
  asleep : ∀ p f, s.act p = .sleeping f false → s.segPtr (P.getFileHandle f) = .settingUp
  resting : ∀ p f w, s.act p = .sleeping f w → s.setup p = none
  sticky : s.noStickySegments = false

variable {P : SegParams} {s t : SegTable} {n p : Nat}

/-- What a segment is like where it has gone. -/
def Fits (e : SegEntry) : Option SegPlace → Prop
  | some q => e.procList = [] ∧ (q = .on .inactive → e.inactive = true)
  | none => e.procList ≠ [] ∧ e.inactive = false

theorem Placed.change (h : s.Placed P) {d : Option SegPlace} (hm : Moved s.kept t.kept n d)
    (hn : 0 < n ∧ n < P.numSegments) (hseg : ∀ m, m ≠ n → t.seg m = s.seg m) (hfit : Fits (t.seg n) d)
    (hcount : (t.seg n).refCount = (t.seg n).procList.length) : t.Placed P where
  apart := hm.apart h.apart
  range q m hq := by
    by_cases hmn : m = n
    · exact hmn ▸ hn
    · exact h.range q m ((hm.other q m hmn).1 hq)
  idle q m hq := by
    by_cases hmn : m = n
    · subst hmn
      rw [(hm.self q).1 hq] at hfit
      exact hfit.1
    · rw [hseg m hmn]
      exact h.idle q m ((hm.other q m hmn).1 hq)
  shared m hpos hlt hno := by
    by_cases hmn : m = n
    · subst hmn
      cases d with
      | none => exact hfit
      | some q => exact absurd ((hm.self q).2 rfl) (hno q)
    · rw [hseg m hmn]
      exact h.shared m hpos hlt fun q hq => hno q ((hm.other q m hmn).2 hq)
  flagged m hin := by
    by_cases hmn : m = n
    · subst hmn
      rw [(hm.self (.on .inactive)).1 hin] at hfit
      exact hfit.2 rfl
    · rw [hseg m hmn]
      exact h.flagged m ((hm.other (.on .inactive) m hmn).1 hin)
  counted m hpos := by
    by_cases hmn : m = n
    · exact hmn ▸ hcount
    · rw [hseg m hmn]
      exact h.counted m hpos

theorem Placed.frame (h : s.Placed P) (hk : t.kept = s.kept)
    (hseg : ∀ m, (t.seg m).procList = (s.seg m).procList ∧ (t.seg m).refCount = (s.seg m).refCount ∧
      (t.seg m).inactive = (s.seg m).inactive) : t.Placed P where
  apart := hk ▸ h.apart
  range q m hq := h.range q m (hk ▸ hq)
  idle q m hq := (hseg m).1.trans (h.idle q m (hk ▸ hq))
  shared m hpos hlt hno := by
    rw [hk] at hno
    rw [(hseg m).1, (hseg m).2.2]
    exact h.shared m hpos hlt hno
  flagged m hin := by
    rw [(hseg m).2.2]
    have hkept : m ∈ t.kept (.on .inactive) := hin
    rw [hk] at hkept
    exact h.flagged m hkept
  counted m hpos := by
    rw [(hseg m).1, (hseg m).2.1]
    exact h.counted m hpos

theorem Linked.frame (h : s.Linked P) (hfile : ∀ m, (t.seg m).fileHandle = (s.seg m).fileHandle)
    (hptr : t.segPtr = s.segPtr) (hsetup : t.setup = s.setup) (hsticky : t.noStickySegments = s.noStickySegments)
    (hloose : ∀ m, t.Loose m → s.Loose m ∨ (s.seg m).fileHandle = none)
    (hact : ∀ q f w, t.act q = .sleeping f w → s.act q = .sleeping f w) : t.Linked P where
  linked m g hpos hf := by
    rw [hptr]
    exact h.linked m g hpos (hfile m ▸ hf)
  back g m hb := by
    rw [hptr] at hb
    rw [hfile]
    exact h.back g m hb
  loose m hm := by
    rw [hfile]
    exact (hloose m hm).elim (h.loose m) id
  settingUp q g hq := by
    rw [hptr]
    exact h.settingUp q g (hsetup ▸ hq)
  one q r g hq hr := h.one q r g (hsetup ▸ hq) (hsetup ▸ hr)
  owned g hg := by
    rw [hsetup]
    exact h.owned g (hptr ▸ hg)
  asleep q f hq := by
    rw [hptr]
    exact h.asleep q f (hact q f false hq)
  resting q f w hq := by
    rw [hsetup]
    exact h.resting q f w (hact q f w hq)
  sticky := hsticky.trans h.sticky

theorem Linked.unlink (h : s.Linked P) {g : Nat} (hn : 0 < n) (hg : (s.seg n).fileHandle = some g)
    (hfile : ∀ m, m ≠ n → (t.seg m).fileHandle = (s.seg m).fileHandle) (hnone : (t.seg n).fileHandle = none)
    (hptr : t.segPtr = update s.segPtr g .nil) (hsetup : t.setup = s.setup)
    (hsticky : t.noStickySegments = s.noStickySegments) (hloose : ∀ m, m ≠ n → t.Loose m → s.Loose m)
    (hact : ∀ q f w, t.act q = .sleeping f w → s.act q = .sleeping f w) : t.Linked P := by
  have hback := h.linked n g hn hg
  have hother : ∀ k b, s.segPtr k = b → b ≠ .seg n → t.segPtr k = b := by
    intro k b hk hb
    rw [hptr, update_of_ne, hk]
    rintro rfl
    exact hb (hk.symm.trans hback)
  refine ⟨fun m k hpos hf => ?_, fun k m hb => ?_, fun m hm => ?_, fun q k hq => ?_, fun q r k hq hr => ?_,
    fun k hk => ?_, fun q f hq => ?_, fun q f w hq => ?_, hsticky.trans h.sticky⟩
  · by_cases hmn : m = n
    · subst hmn
      rw [hnone] at hf
      nomatch hf
    · rw [hfile m hmn] at hf
      exact hother k _ (h.linked m k hpos hf) fun hb => hmn (BackPtr.seg.inj hb)
  · have hkg : k ≠ g := by
      rintro rfl
      rw [hptr, update_self] at hb
      nomatch hb
    rw [hptr, update_of_ne hkg] at hb
    have hk := h.back k m hb
    have hmn : m ≠ n := by
      rintro rfl
      exact hkg (Option.some.inj (hk.2.2.symm.trans hg))
    rw [hfile m hmn]
    exact hk
  · by_cases hmn : m = n
    · exact hmn ▸ hnone
    · rw [hfile m hmn]
      exact h.loose m (hloose m hmn hm)
  · exact hother k _ (h.settingUp q k (hsetup ▸ hq)) nofun
  · exact h.one q r k (hsetup ▸ hq) (hsetup ▸ hr)
  · have hkg : k ≠ g := by
      rintro rfl
      rw [hptr, update_self] at hk
      nomatch hk
    rw [hptr, update_of_ne hkg] at hk
    rw [hsetup]
    exact h.owned k hk
  · exact hother _ _ (h.asleep q f (hact q f false hq)) nofun
  · rw [hsetup]
    exact h.resting q f w (hact q f w hq)

end SegTable

end SpriteKernel.Vm
