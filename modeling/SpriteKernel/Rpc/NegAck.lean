import SpriteKernel.Rpc.Server
import SpriteKernel.Lib.Transition
import SpriteKernel.Lib.Update
import SpriteKernel.Lib.Tally

/- Negative acknowledgements (rpcServer.c). Where no server process is found for a request, `RpcServerDispatch` puts
   a header in a free buffer and `NegAckFunc`, called later, sends what is in the buffers. `rpcNack.mutex` is let go
   of while a packet is sent, and before `Proc_CallFunc`; a step lies between two such points. -/
namespace SpriteKernel.Rpc

open Function List
open Transition

/-- `RPC_NACK_FREE`, `RPC_NACK_WAITING` and `RPC_NACK_XMITTING`. -/
inductive NackState where
  | free
  | waiting
  | xmitting
  deriving DecidableEq

/-- `NackData`, less the mutex and the buffer sets. -/
structure NackData where
  rpcHdrArray : Nat → RpcHdr
  hdrState : Nat → NackState
  numFree : Int

/-- What does not change: `rpc_NumNackBuffers`, `rpc_SpriteID` and `rpcBootID`. -/
structure NackConfig where
  numNackBuffers : Nat
  spriteID : Int
  bootID : Nat

/-- The two indexes the dispatcher looks for. -/
structure NackSearch where
  foundSpot : Option Nat
  alreadyFunc : Option Nat

/-- One turn of the dispatcher's loop. -/
def searchStep (hdrState : Nat → NackState) (s : NackSearch) (i : Nat) : NackSearch :=
  if s.foundSpot = none ∧ hdrState i = .free then { s with foundSpot := some i }
  else if s.alreadyFunc = none ∧ hdrState i = .waiting then { s with alreadyFunc := some i }
  else s

def NackData.search (d : NackData) (n : Nat) : NackSearch := (List.range n).foldl (searchStep d.hdrState) ⟨none, none⟩

/-- What the dispatcher does once it has let go of the mutex. -/
inductive NackOutcome where
  | done
  | callFunc
  | panic
  deriving DecidableEq

/-- The header of a server that is `NIL`; the hint is made reasonable. -/
def nackHdr (cfg : NackConfig) (hdr requestHdr : RpcHdr) : RpcHdr :=
  { rpcSrvInitHdr cfg.spriteID cfg.bootID hdr requestHdr with serverHint := 0 }

/-- `RpcServerDispatch` with no server, as long as it holds the mutex. -/
def NackData.dispatch (cfg : NackConfig) (d : NackData) (requestHdr : RpcHdr) : NackData × NackOutcome :=
  if requestHdr.clientID = cfg.spriteID then (d, .done)
  else if d.numFree ≤ 0 then (d, .done)
  else
    let s := d.search cfg.numNackBuffers
    match s.foundSpot with
    | none => (d, .panic)
    | some spot =>
      let d :=
        { rpcHdrArray := update d.rpcHdrArray spot (nackHdr cfg (d.rpcHdrArray spot) requestHdr)
          hdrState := update d.hdrState spot .waiting
          numFree := d.numFree - 1 }
      match s.alreadyFunc with
      | none => (d, .callFunc)
      | some i => (d, if i ≥ spot then .callFunc else .done)

/-- The next buffer from the `i`th on that `NegAckFunc` finds waiting. -/
def NackData.nextWaiting (d : NackData) (n i : Nat) : Option Nat :=
  (List.range n).find? (fun j => i ≤ j ∧ d.hdrState j = .waiting)

/-- The buffer is handed to `RpcOutput`. -/
def NackData.transmit (d : NackData) (i : Nat) : NackData :=
  { d with
    hdrState := update d.hdrState i .xmitting
    rpcHdrArray := update d.rpcHdrArray i { d.rpcHdrArray i with flags := Flag.nack ||| Flag.ack } }

/-- `RpcOutput` has returned. -/
def NackData.release (d : NackData) (i : Nat) : NackData :=
  { d with hdrState := update d.hdrState i .free, numFree := d.numFree + 1 }

/-- Waiting to be called, called and waiting for the mutex, or in `RpcOutput` for a buffer. -/
inductive NegAckFunc where
  | unscheduled
  | scheduled
  | entered
  | sending (i : Nat)
  | returned
  deriving DecidableEq

/-- It will come to buffer `j` yet. -/
def NegAckFunc.Attends : NegAckFunc → Nat → Prop
  | .scheduled, _ => True
  | .entered, _ => True
  | .sending i, j => i < j
  | _, _ => False

/-- The buffers, the executions of `NegAckFunc`, and the calls of `RpcServerDispatch` about to schedule one. -/
structure NackSystem where
  data : NackData
  func : Nat → NegAckFunc
  calling : Nat → Bool
  sent : List RpcHdr
  panicked : Bool

inductive NackLabel where
  | dispatch (call : Nat) (requestHdr : RpcHdr)
  | callFunc (call func : Nat)
  | start (func : Nat)
  | run (func : Nat)

def NackSystem.initial (cfg : NackConfig) (rpcHdrArray : Nat → RpcHdr) : NackSystem where
  data := ⟨rpcHdrArray, fun _ => .free, cfg.numNackBuffers⟩
  func := fun _ => .unscheduled
  calling := fun _ => false
  sent := []
  panicked := false

/-- `NegAckFunc` goes on with the `i`th buffer. -/
def NackSystem.scan (cfg : NackConfig) (s : NackSystem) (k i : Nat) : NackSystem :=
  match s.data.nextWaiting cfg.numNackBuffers i with
  | none => { s with func := update s.func k .returned }
  | some j =>
    { s with
      data := s.data.transmit j
      func := update s.func k (.sending j)
      sent := s.sent ++ [(s.data.transmit j).rpcHdrArray j] }

def NackSystem.step (cfg : NackConfig) (s : NackSystem) : NackLabel → Option NackSystem
  | .dispatch c requestHdr =>
    if s.calling c then none
    else
      let (d, outcome) := s.data.dispatch cfg requestHdr
      some { s with
        data := d
        calling := if outcome = .callFunc then update s.calling c true else s.calling
        panicked := s.panicked || outcome = .panic }
  | .callFunc c k =>
    if s.calling c ∧ s.func k = .unscheduled then
      some { s with
        calling := update s.calling c false
        func := update s.func k .scheduled }
    else none
  | .start k =>
    if s.func k = .scheduled then some { s with func := update s.func k .entered } else none
  | .run k =>
    match s.func k with
    | .entered => some (s.scan cfg k 0)
    | .sending i => some ({ s with data := s.data.release i }.scan cfg k (i + 1))
    | _ => none

/-! What the two loops find. -/

theorem foldl_searchStep (h : Nat → NackState) : ∀ (l : List Nat) (s : NackSearch),
    l.foldl (searchStep h) s =
      ⟨s.foundSpot.or (l.find? (fun i => h i = .free)), s.alreadyFunc.or (l.find? (fun i => h i = .waiting))⟩
  | [], ⟨found, already⟩ => by simp
  | i :: l, ⟨found, already⟩ => by
    rw [foldl_cons, foldl_searchStep h l, List.find?_cons, List.find?_cons, searchStep]
    cases found <;> cases already <;> cases h i <;> simp

theorem NackData.search_eq (d : NackData) (n : Nat) :
    d.search n = ⟨(List.range n).find? (fun i => d.hdrState i = .free),
      (List.range n).find? (fun i => d.hdrState i = .waiting)⟩ := by
  rw [NackData.search, foldl_searchStep, Option.none_or, Option.none_or]

theorem dispatch_cases (cfg : NackConfig) (d : NackData) (hdr : RpcHdr) :
    d.dispatch cfg hdr = (d, .done) ∨
    (0 < d.numFree ∧ (∀ i < cfg.numNackBuffers, d.hdrState i ≠ .free) ∧ d.dispatch cfg hdr = (d, .panic)) ∨
    ∃ spot < cfg.numNackBuffers, d.hdrState spot = .free ∧
      (d.dispatch cfg hdr).1.hdrState = update d.hdrState spot .waiting ∧
      (d.dispatch cfg hdr).1.numFree = d.numFree - 1 ∧
      ((d.dispatch cfg hdr).2 = .callFunc ∨
        (d.dispatch cfg hdr).2 = .done ∧ ∃ i < spot, d.hdrState i = .waiting) := by
  rw [NackData.dispatch]
  split
  · exact .inl rfl
  split
  · exact .inl rfl
  right
  rw [NackData.search_eq]
  cases hfound : (List.range cfg.numNackBuffers).find? (fun i => d.hdrState i = .free) with
  | none =>
    left
    refine ⟨by omega, ?_, rfl⟩
    intro i hi
    have hno := List.find?_eq_none.1 hfound i (mem_range.2 hi)
    simpa using hno
  | some spot =>
    right
    have hspot : d.hdrState spot = .free := by simpa using List.find?_some hfound
    refine ⟨spot, mem_range.1 (mem_of_find?_eq_some hfound), hspot, ?_⟩
    cases halready : (List.range cfg.numNackBuffers).find? (fun i => d.hdrState i = .waiting) with
    | none => exact ⟨rfl, rfl, .inl rfl⟩
    | some i =>
      have hi : d.hdrState i = .waiting := by simpa using List.find?_some halready
      refine ⟨rfl, rfl, ?_⟩
      show (if i ≥ spot then NackOutcome.callFunc else .done) = .callFunc ∨
        (if i ≥ spot then NackOutcome.callFunc else .done) = .done ∧ ∃ i < spot, d.hdrState i = .waiting
      split
      · exact .inl rfl
      · exact .inr ⟨rfl, i, by omega, hi⟩

variable {d : NackData}

theorem nextWaiting_some {n i j : Nat} (h : d.nextWaiting n i = some j) :
    j < n ∧ i ≤ j ∧ d.hdrState j = .waiting ∧ ∀ k, i ≤ k → d.hdrState k = .waiting → j ≤ k := by
  obtain ⟨hp, hj, hbefore⟩ := List.find?_range_eq_some.1 h
  have hj' : i ≤ j ∧ d.hdrState j = .waiting := by simpa using hp
  refine ⟨mem_range.1 hj, hj'.1, hj'.2, ?_⟩
  intro k hik hk
  by_contra hlt
  have hno := hbefore k (by omega)
  simp [hik, hk] at hno

theorem nextWaiting_none {n i : Nat} (h : d.nextWaiting n i = none) : ∀ k < n, i ≤ k → d.hdrState k ≠ .waiting := by
  intro k hk hik
  have hno := List.find?_eq_none.1 h k (mem_range.2 hk)
  simpa [hik] using hno

/-! The invariant. -/

/-- The free buffers are counted, one in `RpcOutput` is in one only, and someone will come to every waiting one. -/
structure NackInv (cfg : NackConfig) (s : NackSystem) : Prop where
  counted : Tally.Sums (fun i => if i < cfg.numNackBuffers ∧ s.data.hdrState i = .free then (1 : Int) else 0)
    s.data.numFree
  sending : ∀ k i, s.func k = .sending i → i < cfg.numNackBuffers ∧ s.data.hdrState i = .xmitting
  apart : ∀ k l i, s.func k = .sending i → s.func l = .sending i → k = l
  attended : ∀ j, s.data.hdrState j = .waiting → (∃ k, (s.func k).Attends j) ∨ ∃ c, s.calling c = true
  inRange : ∀ j, s.data.hdrState j ≠ .free → j < cfg.numNackBuffers
  calm : s.panicked = false

section invariant
variable {cfg : NackConfig} {s t : NackSystem} {k i : Nat} {hdr : RpcHdr}

theorem initial_inv (cfg : NackConfig) (h : Nat → RpcHdr) : NackInv cfg (NackSystem.initial cfg h) where
  counted := by
    refine ⟨Finset.range cfg.numNackBuffers, ?_, ?_⟩
    · intro i hi
      rw [Finset.mem_range] at hi
      exact if_neg (fun hf => hi hf.1)
    · have hsum : (Finset.range cfg.numNackBuffers).sum
          (fun i => if i < cfg.numNackBuffers ∧ (NackSystem.initial cfg h).data.hdrState i = .free then (1 : Int) else 0) =
          (Finset.range cfg.numNackBuffers).sum (fun _ => (1 : Int)) :=
        Finset.sum_congr rfl (fun i hi => if_pos ⟨Finset.mem_range.1 hi, rfl⟩)
      rw [hsum, Finset.sum_const, Finset.card_range, nsmul_eq_mul, mul_one]
      rfl
  sending := fun _ _ h => nomatch h
  apart := fun _ _ _ h => nomatch h
  attended := fun _ h => nomatch h
  inRange := fun _ h => absurd rfl h
  calm := rfl

theorem exists_free (h : NackInv cfg s) (hpos : 0 < s.data.numFree) :
    ∃ i < cfg.numNackBuffers, s.data.hdrState i = .free := by
  by_contra hno
  push Not at hno
  have hzero := h.counted.eq_zero (fun i => if_neg (fun hf => hno i hf.1 hf.2))
  omega

theorem counted_update {n i : Nat} (x : NackState)
    (h : Tally.Sums (fun i => if i < n ∧ d.hdrState i = .free then (1 : Int) else 0) d.numFree) :
    Tally.Sums (fun j => if j < n ∧ update d.hdrState i x j = .free then (1 : Int) else 0)
      (d.numFree + ((if i < n ∧ x = .free then 1 else 0) - (if i < n ∧ d.hdrState i = .free then 1 else 0))) := by
  have hc := h.change i (g := fun j => if j < n ∧ update d.hdrState i x j = .free then (1 : Int) else 0)
    (fun j hj => by rw [update_of_ne hj])
  rw [update_self] at hc
  exact hc

/-- Execution `k` holds the mutex and goes on with the `i`th buffer: others will come to what is before that. -/
structure ScanInv (cfg : NackConfig) (s : NackSystem) (k i : Nat) : Prop where
  counted : Tally.Sums (fun i => if i < cfg.numNackBuffers ∧ s.data.hdrState i = .free then (1 : Int) else 0)
    s.data.numFree
  sending : ∀ l j, l ≠ k → s.func l = .sending j → j < cfg.numNackBuffers ∧ s.data.hdrState j = .xmitting
  apart : ∀ l m j, l ≠ k → m ≠ k → s.func l = .sending j → s.func m = .sending j → l = m
  attended : ∀ j, s.data.hdrState j = .waiting → i ≤ j ∨ (∃ l, l ≠ k ∧ (s.func l).Attends j) ∨ ∃ c, s.calling c = true
  inRange : ∀ j, s.data.hdrState j ≠ .free → j < cfg.numNackBuffers
  calm : s.panicked = false

theorem scan_none (h : s.data.nextWaiting cfg.numNackBuffers i = none) :
    s.scan cfg k i = { s with func := update s.func k .returned } := by
  rw [NackSystem.scan, h]

theorem scan_some {k i j : Nat} (h : s.data.nextWaiting cfg.numNackBuffers i = some j) :
    s.scan cfg k i =
      { s with
        data := s.data.transmit j
        func := update s.func k (.sending j)
        sent := s.sent ++ [(s.data.transmit j).rpcHdrArray j] } := by
  rw [NackSystem.scan, h]

theorem inv_of_scan_none (h : ScanInv cfg s k i)
    (hnext : s.data.nextWaiting cfg.numNackBuffers i = none) : NackInv cfg (s.scan cfg k i) := by
  have hnone := nextWaiting_none hnext
  have hother (l j : Nat) (hl : update s.func k .returned l = .sending j) :
      l ≠ k ∧ s.func l = .sending j := of_update_ne hl (by simp)
  rw [scan_none hnext]
  constructor
  case counted => exact h.counted
  case sending => exact fun l j hl => h.sending l j (hother l j hl).1 (hother l j hl).2
  case apart =>
    intro l m j hl hm
    obtain ⟨hlk, hl⟩ := hother l j hl
    obtain ⟨hmk, hm⟩ := hother m j hm
    exact h.apart l m j hlk hmk hl hm
  case attended =>
    intro j hj
    rcases h.attended j hj with hij | ⟨l, hlk, hl⟩ | hc
    · exact absurd hj (hnone j (h.inRange j (by rw [hj]; decide)) hij)
    · refine .inl ⟨l, ?_⟩
      show (update s.func k .returned l).Attends j
      rw [update_of_ne hlk]
      exact hl
    · exact .inr hc
  case inRange => exact h.inRange
  case calm => exact h.calm

theorem inv_of_scan_some {k i j : Nat} (h : ScanInv cfg s k i)
    (hnext : s.data.nextWaiting cfg.numNackBuffers i = some j) : NackInv cfg (s.scan cfg k i) := by
  obtain ⟨hj, hij, hwait, hfirst⟩ := nextWaiting_some hnext
  -- no other execution has this buffer
  have hnot (l : Nat) (hlk : l ≠ k) : s.func l ≠ .sending j := by
    intro hl
    have hx := (h.sending l j hlk hl).2
    rw [hwait] at hx
    exact absurd hx (by decide)
  have hfunc (l m : Nat) (hl : update s.func k (.sending j) l = .sending m) :
      l = k ∧ m = j ∨ l ≠ k ∧ m ≠ j ∧ s.func l = .sending m := by
    obtain ⟨hlk, hself⟩ | ⟨hlk, hold⟩ := of_update hl
    · exact .inl ⟨hlk, (NegAckFunc.sending.inj hself).symm⟩
    · refine .inr ⟨hlk, ?_, hold⟩
      rintro rfl
      exact hnot l hlk hold
  rw [scan_some hnext]
  constructor
  case counted =>
    have hc := counted_update (i := j) .xmitting h.counted
    rw [if_neg (by simp), if_neg (by simp [hwait]), Int.sub_zero, Int.add_zero] at hc
    exact hc
  case sending =>
    intro l m hl
    show m < cfg.numNackBuffers ∧ update s.data.hdrState j .xmitting m = .xmitting
    rcases hfunc l m hl with ⟨-, rfl⟩ | ⟨hlk, hmj, hl⟩
    · exact ⟨hj, update_self ..⟩
    · rw [update_of_ne hmj]
      exact h.sending l m hlk hl
  case apart =>
    intro l m a hl hm
    rcases hfunc l a hl with ⟨hlk, ha⟩ | ⟨hlk, ha, hl⟩
    · rcases hfunc m a hm with ⟨hmk, -⟩ | ⟨-, ha', -⟩
      · rw [hlk, hmk]
      · exact absurd ha ha'
    · rcases hfunc m a hm with ⟨-, ha'⟩ | ⟨hmk, -, hm⟩
      · exact absurd ha' ha
      · exact h.apart l m a hlk hmk hl hm
  case attended =>
    intro m hm
    obtain ⟨hmj, hm'⟩ : m ≠ j ∧ s.data.hdrState m = .waiting := of_update_ne hm (by decide)
    rcases h.attended m hm' with him | ⟨l, hlk, hl⟩ | hc
    · refine .inl ⟨k, ?_⟩
      show (update s.func k (.sending j) k).Attends m
      rw [update_self]
      exact Nat.lt_of_le_of_ne (hfirst m him hm') (fun he => hmj he.symm)
    · refine .inl ⟨l, ?_⟩
      show (update s.func k (.sending j) l).Attends m
      rw [update_of_ne hlk]
      exact hl
    · exact .inr hc
  case inRange =>
    intro m hm
    by_cases hmj : m = j
    · exact hmj ▸ hj
    · have hx : update s.data.hdrState j .xmitting m ≠ .free := hm
      rw [update_of_ne hmj] at hx
      exact h.inRange m hx
  case calm => exact h.calm

theorem inv_of_scan (h : ScanInv cfg s k i) : NackInv cfg (s.scan cfg k i) := by
  cases hnext : s.data.nextWaiting cfg.numNackBuffers i with
  | none => exact inv_of_scan_none h hnext
  | some j => exact inv_of_scan_some h hnext

theorem scan_of_entered (k : Nat) (h : NackInv cfg s) : ScanInv cfg s k 0 where
  counted := h.counted
  sending := fun l j _ hl => h.sending l j hl
  apart := fun l m j _ _ hl hm => h.apart l m j hl hm
  attended := fun _ _ => .inl (Nat.zero_le _)
  inRange := h.inRange
  calm := h.calm

theorem scan_of_sending (h : NackInv cfg s) (hk : s.func k = .sending i) :
    ScanInv cfg { s with data := s.data.release i } k (i + 1) := by
  obtain ⟨hi, hx⟩ := h.sending k i hk
  have hother (l j : Nat) (hlk : l ≠ k) (hl : s.func l = .sending j) : j ≠ i := by
    rintro rfl
    exact hlk (h.apart l k j hl hk)
  constructor
  case counted =>
    have hc := counted_update (i := i) .free h.counted
    rw [if_pos ⟨hi, rfl⟩, if_neg (by simp [hx]), Int.sub_zero] at hc
    exact hc
  case sending =>
    intro l j hlk hl
    show j < cfg.numNackBuffers ∧ update s.data.hdrState i .free j = .xmitting
    rw [update_of_ne (hother l j hlk hl)]
    exact h.sending l j hl
  case apart => exact fun l m j _ _ hl hm => h.apart l m j hl hm
  case attended =>
    intro j hj
    rcases h.attended j (of_update_ne hj (by decide)).2 with ⟨l, hl⟩ | hc
    · by_cases hlk : l = k
      · rw [hlk, hk] at hl
        exact .inl (Nat.succ_le_of_lt hl)
      · exact .inr (.inl ⟨l, hlk, hl⟩)
    · exact .inr (.inr hc)
  case inRange =>
    intro j hj
    exact (update_cases (P := (· ≠ NackState.free)) hj).elim (fun hself => absurd rfl hself.2) fun hold => h.inRange j hold.2
  case calm => exact h.calm

/-- A header is queued. With no call-back asked for, whoever comes to an earlier buffer comes to this one too. -/
theorem inv_of_queued {spot : Nat} (calling : Nat → Bool) (h : NackInv cfg s)
    (hspot : spot < cfg.numNackBuffers) (hfree : s.data.hdrState spot = .free)
    (hstate : (s.data.dispatch cfg hdr).1.hdrState = update s.data.hdrState spot .waiting)
    (hnum : (s.data.dispatch cfg hdr).1.numFree = s.data.numFree - 1)
    (hkept : ∀ c, s.calling c = true → calling c = true)
    (hwho : (∃ c, calling c = true) ∨ ∃ i < spot, s.data.hdrState i = .waiting) :
    NackInv cfg { s with data := (s.data.dispatch cfg hdr).1, calling := calling } := by
  have hne (j : Nat) (hj : s.data.hdrState j ≠ .free) : j ≠ spot := by
    rintro rfl
    exact hj hfree
  constructor
  case counted =>
    have hc := counted_update (i := spot) .waiting h.counted
    rw [if_neg (by simp), if_pos ⟨hspot, hfree⟩] at hc
    rw [hstate, hnum]
    exact hc
  case sending =>
    intro k i hk
    obtain ⟨hi, hx⟩ := h.sending k i hk
    rw [hstate, update_of_ne (hne i (by rw [hx]; decide))]
    exact ⟨hi, hx⟩
  case apart => exact h.apart
  case attended =>
    have hold (j : Nat) (hj : s.data.hdrState j = .waiting) :
        (∃ k, (s.func k).Attends j) ∨ ∃ c, calling c = true :=
      (h.attended j hj).imp id (fun ⟨c, hc⟩ => ⟨c, hkept c hc⟩)
    intro j hj
    have hj' : update s.data.hdrState spot .waiting j = .waiting := hstate ▸ hj
    by_cases hjs : j = spot
    · rcases hwho with hc | ⟨i, hi, hwait⟩
      · exact .inr hc
      · rcases hold i hwait with ⟨k, hk⟩ | hc
        · refine .inl ⟨k, ?_⟩
          cases hf : s.func k with
          | scheduled => trivial
          | entered => trivial
          | sending m =>
            rw [hf] at hk
            exact hjs ▸ Nat.lt_trans hk hi
          | unscheduled => rw [hf] at hk; exact hk.elim
          | returned => rw [hf] at hk; exact hk.elim
        · exact .inr hc
    · rw [update_of_ne hjs] at hj'
      exact hold j hj'
  case inRange =>
    intro j hj
    have hj' : update s.data.hdrState spot .waiting j ≠ .free := hstate ▸ hj
    by_cases hjs : j = spot
    · exact hjs ▸ hspot
    · rw [update_of_ne hjs] at hj'
      exact h.inRange j hj'
  case calm => exact h.calm

theorem dispatch_step {c : Nat} (hs : s.step cfg (.dispatch c hdr) = some t) : t = { s with
      data := (s.data.dispatch cfg hdr).1
      calling := if (s.data.dispatch cfg hdr).2 = .callFunc then update s.calling c true else s.calling
      panicked := s.panicked || (s.data.dispatch cfg hdr).2 = .panic } := by
  rw [NackSystem.step] at hs
  split at hs
  · exact absurd hs (by simp)
  · exact (Option.some.inj hs).symm

theorem inv_of_dispatch {c : Nat} (h : NackInv cfg s) (hs : s.step cfg (.dispatch c hdr) = some t) : NackInv cfg t := by
  rw [dispatch_step hs]
  rcases dispatch_cases cfg s.data hdr with hd | ⟨hpos, hno, -⟩ | ⟨spot, hspot, hfree, hstate, hnum, hout⟩
  · rw [hd]
    simpa using h
  · obtain ⟨i, hi, hf⟩ := exists_free h hpos
    exact absurd hf (hno i hi)
  · rcases hout with hout | ⟨hout, hearlier⟩
    · have hq := inv_of_queued (update s.calling c true) h hspot hfree hstate hnum
        (fun d hd => by
          rw [update_apply, hd, ite_self])
        (.inl ⟨c, update_self ..⟩)
      rw [hout]
      simpa using hq
    · have hq := inv_of_queued s.calling h hspot hfree hstate hnum (fun _ hd => hd) (.inr hearlier)
      rw [hout]
      simpa using hq

theorem inv_of_func {k : Nat} {x : NegAckFunc} {calling : Nat → Bool} (h : NackInv cfg s)
    (hx : ∀ j, x.Attends j) (hns : ∀ i, x ≠ .sending i) :
    NackInv cfg { s with func := update s.func k x, calling := calling } := by
  constructor
  case counted => exact h.counted
  case sending => exact fun l i hl => h.sending l i (of_update_ne hl (hns i)).2
  case apart => exact fun l m i hl hm => h.apart l m i (of_update_ne hl (hns i)).2 (of_update_ne hm (hns i)).2
  case attended =>
    intro j _
    refine .inl ⟨k, ?_⟩
    show (update s.func k x k).Attends j
    rw [update_self]
    exact hx j
  case inRange => exact h.inRange
  case calm => exact h.calm

theorem inv_of_step {l : NackLabel} (h : NackInv cfg s) (hs : s.step cfg l = some t) : NackInv cfg t := by
  cases l with
  | dispatch c hdr => exact inv_of_dispatch h hs
  | callFunc c k =>
    obtain ⟨-, he⟩ := Option.ite_none_right_eq_some.1 hs
    cases he
    exact inv_of_func h (fun _ => trivial) (fun _ => by simp)
  | start k =>
    obtain ⟨-, he⟩ := Option.ite_none_right_eq_some.1 hs
    cases he
    exact inv_of_func h (fun _ => trivial) (fun _ => by simp)
  | run k =>
    rw [NackSystem.step] at hs
    cases hk : s.func k with
    | entered =>
      rw [hk] at hs
      cases hs
      exact inv_of_scan (scan_of_entered k h)
    | sending i =>
      rw [hk] at hs
      cases hs
      exact inv_of_scan (scan_of_sending h hk)
    | unscheduled => rw [hk] at hs; exact absurd hs (by simp)
    | scheduled => rw [hk] at hs; exact absurd hs (by simp)
    | returned => rw [hk] at hs; exact absurd hs (by simp)

end invariant

/-- What is promised of the buffers while the mutex is free. -/
structure NacksAttended (cfg : NackConfig) (s : NackSystem) : Prop where
  numFree : s.data.numFree = ((Finset.range cfg.numNackBuffers).filter (fun i => s.data.hdrState i = .free)).card
  calm : s.panicked = false
  attended : ∀ j < cfg.numNackBuffers, s.data.hdrState j = .waiting →
    (∃ k, (s.func k).Attends j) ∨ ∃ c, s.calling c = true

theorem attended_of_inv {cfg : NackConfig} {s : NackSystem} (h : NackInv cfg s) : NacksAttended cfg s where
  numFree := by
    have hsum := h.counted.eq_sum (Q := Finset.range cfg.numNackBuffers)
      (fun i hi => if_neg (fun hf => hi (Finset.mem_range.2 hf.1)))
    rw [hsum, ← Finset.sum_boole]
    apply Finset.sum_congr rfl
    intro i hi
    simp [Finset.mem_range.1 hi]
  calm := h.calm
  attended := fun j _ hj => h.attended j hj

/-- **No negative acknowledgement is stranded**, whatever the interleaving. -/
theorem nacks_attended (cfg : NackConfig) (rpcHdrArray : Nat → RpcHdr) {s : NackSystem}
    (hrun : Run (NackSystem.step cfg) (fun _ _ => True) (NackSystem.initial cfg rpcHdrArray) s) :
    NacksAttended cfg s :=
  attended_of_inv (hrun.invariant (fun _ _ _ h _ hs => inv_of_step h hs) (initial_inv cfg rpcHdrArray))

/-- A request from host 5, of which only the addressing is read. -/
def requestFrom5 : RpcHdr where
  version := 0
  flags := Flag.request ||| Flag.server
  clientID := 5
  serverID := 1
  channel := 2
  serverHint := 0
  bootID := 100
  ID := 31
  delay := 0
  numFrags := 0
  fragMask := 0
  command := 9
  paramSize := 0
  dataSize := 0
  paramOffset := 0
  dataOffset := 0

/-- Two requests find no server; the call-back sends the first refusal and starts on
    the second. -/
theorem two_nacks_attended :
    ∃ s, exec (NackSystem.step ⟨4, 1, 9⟩) (NackSystem.initial ⟨4, 1, 9⟩ (fun _ => requestFrom5))
      [.dispatch 0 requestFrom5, .dispatch 1 requestFrom5, .callFunc 0 0, .start 0, .run 0, .run 0] = some s ∧
      s.data.numFree = 3 ∧ NacksAttended ⟨4, 1, 9⟩ s :=
  ⟨_, rfl, by decide, nacks_attended ⟨4, 1, 9⟩ (fun _ => requestFrom5)
    (run_of_exec (A := fun _ => True) [.dispatch 0 requestFrom5, .dispatch 1 requestFrom5, .callFunc 0 0, .start 0,
      .run 0, .run 0] _ _ (fun _ _ => trivial) rfl)⟩

/-- Before `Proc_CallFunc` the dispatcher leaves a waiting buffer that no execution of `NegAckFunc` will come to. -/
theorem nack_unscheduled :
    ∃ s, Run (NackSystem.step ⟨4, 1, 9⟩) (fun _ _ => True) (NackSystem.initial ⟨4, 1, 9⟩ (fun _ => requestFrom5)) s ∧
      s.data.hdrState 0 = .waiting ∧ ∀ k, ¬ (s.func k).Attends 0 := by
  refine ⟨_, run_of_exec (A := fun _ => True) [.dispatch 0 requestFrom5] _ _ (fun _ _ => trivial) rfl, rfl, ?_⟩
  intro k h
  exact h

end SpriteKernel.Rpc
