import SpriteKernel.Lib.Transition
import Mathlib.Data.List.Sort

/- The timer queue over any machine's ticks. A `Timer_CallBack` lets the mutex go for each call, and comes back to
   whatever the queue is by then. -/
namespace SpriteKernel.Timer

open Function List Transition
variable {τ : Type} [LinearOrder τ] {addInterval : τ → Nat → τ}

/-- `routine` is checked when the element is scheduled. History: `number`, and the presents of the callbacks that
    were over while the element was queued. -/
structure QueueElement (τ : Type) where
  element : Nat
  routine : Nat
  time : τ
  number : Nat
  passed : List τ := []
  routine_ne : routine ≠ 0

/-- `presents`: of the callbacks whose routine runs. History: the schedulings of each element, those called, at which
    present, and those descheduled. -/
structure Queue (τ : Type) where
  clock : τ
  processed : Nat → Bool
  queue : List (QueueElement τ) := []
  presents : List τ := []
  count : Nat := 0
  last : Nat → Option Nat := fun _ => none
  called : List (QueueElement τ × τ) := []
  dropped : List Nat := []

inductive TimerStep (τ : Type) where
  | schedule (element routine : Nat) (time : τ) (interval : Option Nat)
  | deschedule (element : Nat)
  | callBack
  | turn (i : Nat)
  | advance (now : τ)

def before (e x : QueueElement τ) : Prop := e.time < x.time ∨ e.time = x.time ∧ e.number < x.number

def QueueElement.pass (present : τ) (e : QueueElement τ) : QueueElement τ := { e with passed := present :: e.passed }

theorem before.le {e x : QueueElement τ} (h : before e x) : e.time ≤ x.time := h.elim le_of_lt fun heq => heq.1.le

namespace Queue
variable {q t : Queue τ} {d : List Nat} {l : TimerStep τ} {present : τ}

def numbers (q : Queue τ) : List Nat := q.queue.map (·.number)
def calls (q : Queue τ) : List Nat := q.called.map (·.1.number)

/-- `interval`: relative to the current time. Without a routine the code panics. -/
def scheduleRoutine (addInterval : τ → Nat → τ) (q : Queue τ) (element routine : Nat) (time : τ) (interval : Option Nat) :
    Option (Queue τ) :=
  if h : routine = 0 then none else
    let e : QueueElement τ := {
      element, routine, time := interval.elim time (addInterval q.clock), number := q.count, routine_ne := h }
    some { q with
      processed := update q.processed element false
      queue := q.queue.orderedInsert (fun a b => a.time < b.time) e
      count := q.count + 1
      last := update q.last element (some q.count) }

def descheduleRoutine (q : Queue τ) (element : Nat) : Bool × Queue τ :=
  match q.queue.find? (·.element == element) with
  | none => (false, q)
  | some e => (true, { q with queue := q.queue.eraseP (·.element == element), dropped := e.number :: q.dropped })

/-- The loop of `Timer_CallBack`, up to where it lets the mutex go. -/
def scan (q : Queue τ) (present : τ) : Queue τ :=
  let ended := { q with queue := q.queue.map (.pass present) }
  match q.queue with
  | [] => ended
  | e :: rest =>
    if present < e.time then ended
    else { q with
      queue := rest, processed := update q.processed e.element true, presents := present :: q.presents
      called := (e, present) :: q.called }

def step (addInterval : τ → Nat → τ) (q : Queue τ) : TimerStep τ → Option (Queue τ)
  | .schedule element routine time interval => q.scheduleRoutine addInterval element routine time interval
  | .deschedule element => some (q.descheduleRoutine element).2
  | .callBack => some (if q.queue.isEmpty then q else q.scan q.clock)
  | .turn i => q.presents[i]?.map { q with presents := q.presents.eraseIdx i }.scan
  | .advance now => if q.clock ≤ now then some { q with clock := now } else none

/-- An element is scheduled only when it is not on the queue. -/
def OffQueue (q : Queue τ) : TimerStep τ → Prop
  | .schedule element _ _ _ => ∀ e ∈ q.queue, e.element ≠ element
  | _ => True

instance : ∀ l, Decidable (q.OffQueue l)
  | .schedule element _ _ _ => inferInstanceAs (Decidable (∀ e ∈ q.queue, e.element ≠ element))
  | .deschedule _ | .callBack | .turn _ | .advance _ => isTrue trivial

/-- What the clients rely on: every scheduling is queued, called or descheduled; nothing is called early, and no
    callback ends with an element that is due still queued. -/
structure Kept (q : Queue τ) : Prop where
  ordered : q.queue.Pairwise before
  timely : ∀ c ∈ q.called, c.1.time ≤ c.2 ∧ c.2 ≤ q.clock ∧ ∀ p ∈ c.1.passed, p < c.1.time
  waiting : ∀ e ∈ q.queue, ∀ p ∈ e.passed, p < e.time
  once : q.numbers ++ (q.calls ++ q.dropped) ~ range q.count
  processed : ∀ a n, q.last a = some n → (q.processed a = true ↔ n ∈ q.calls)

/-- With `d` already descheduled. -/
structure Inv (d : List Nat) (q : Queue τ) : Prop extends Kept q where
  queued : ∀ e ∈ q.queue, q.last e.element = some e.number
  latest : ∀ a n, q.last a = some n → n < q.count ∧ ∀ b, q.last b = some n → a = b
  present : ∀ p ∈ q.presents, p ≤ q.clock
  dropped : d ⊆ q.dropped

theorem Inv.number_lt (h : Inv d q) {n : Nat} (hn : n ∈ q.numbers ++ (q.calls ++ q.dropped)) : n < q.count :=
  mem_range.1 (h.once.mem_iff.1 hn)

/-- The newest scheduling goes behind those of its time. -/
theorem ordered_insert {e : QueueElement τ} : ∀ {l : List (QueueElement τ)}, l.Pairwise before →
    (∀ x ∈ l, x.number < e.number) → (l.orderedInsert (fun a b => a.time < b.time) e).Pairwise before
  | [], _, _ => pairwise_singleton _ _
  | x :: l, h, hn => by
    obtain ⟨hx, hl⟩ := pairwise_cons.1 h
    rw [orderedInsert_cons]
    split
    · next hlt =>
      refine pairwise_cons.2 ⟨fun y hy => .inl ?_, h⟩
      obtain rfl | hy := mem_cons.1 hy
      · exact hlt
      · exact hlt.trans_le (hx y hy).le
    · next hle =>
      refine pairwise_cons.2 ⟨fun y hy => ?_, ordered_insert hl fun y hy => hn y (mem_cons_of_mem x hy)⟩
      obtain rfl | hy := (mem_orderedInsert _).1 hy
      · exact (not_lt.1 hle).lt_or_eq.imp_right fun heq => ⟨heq, hn x mem_cons_self⟩
      · exact hx y hy

section
variable (h : Inv d q)
include h

theorem scheduleRoutine_inv {element routine : Nat} {time : τ} {interval : Option Nat}
    (hoff : ∀ e ∈ q.queue, e.element ≠ element)
    (hs : q.scheduleRoutine addInterval element routine time interval = some t) : Inv d t := by
  unfold scheduleRoutine at hs
  split at hs
  · cases hs
  next hne =>
  cases hs
  have hperm := perm_orderedInsert (fun a b : QueueElement τ => a.time < b.time)
    { element, routine, time := interval.elim time (addInterval q.clock), number := q.count, routine_ne := hne } q.queue
  have hmem {x} := (hperm.mem_iff (a := x)).trans mem_cons
  refine { h with ordered := ?_, waiting := ?_, once := ?_, processed := ?_, queued := ?_, latest := ?_ }
  · exact ordered_insert h.ordered fun x hx => h.number_lt (mem_append_left _ (mem_map_of_mem hx))
  · intro e he
    obtain rfl | he := hmem.1 he
    · exact fun p hp => by cases hp
    · exact h.waiting e he
  · calc _ ~ q.count :: (q.numbers ++ (q.calls ++ q.dropped)) := (hperm.map _).append_right _
      _ ~ q.count :: range q.count := h.once.cons _
      _ ~ range (q.count + 1) := by rw [range_succ]; exact (perm_append_singleton _ _).symm
  · intro a n ha
    obtain rfl | hne := eq_or_ne a element
    · cases (update_self ..).symm.trans ha
      refine iff_of_false (by simp) fun hn => ?_
      exact lt_irrefl _ (h.number_lt (mem_append_right _ (mem_append_left _ hn)))
    · exact (Bool.eq_iff_iff.1 (update_of_ne hne _ _)).trans (h.processed a n ((update_of_ne hne _ _).symm.trans ha))
  · intro e he
    obtain rfl | he := hmem.1 he
    · exact update_self ..
    · exact (update_of_ne (hoff e he) _ _).trans (h.queued e he)
  · have := h.latest
    grind [update_apply]

theorem over_inv (hnow : ∀ e ∈ q.queue, present < e.time) :
    Inv d { q with queue := q.queue.map (.pass present) } := by
  have hnumbers : numbers { q with queue := q.queue.map (.pass present) } = q.numbers := by
    simp [numbers, QueueElement.pass]
  refine { h with ordered := pairwise_map.2 h.ordered, waiting := ?_, once := hnumbers ▸ h.once, queued := ?_ }
  · intro e he p hp
    obtain ⟨x, hx, rfl⟩ := mem_map.1 he
    obtain rfl | hp := mem_cons.1 hp
    · exact hnow x hx
    · exact h.waiting x hx p hp
  · intro e he
    obtain ⟨x, hx, rfl⟩ := mem_map.1 he
    exact h.queued x hx

theorem scan_inv (hp : present ≤ q.clock) : Inv d (q.scan present) := by
  unfold scan
  split
  · exact over_inv h (by simp_all)
  next e rest hq =>
  have hmem {x} (hx : x ∈ rest) : x ∈ q.queue := by simp [hq, hx]
  have he : e ∈ q.queue := by simp [hq]
  have hord := pairwise_cons.1 (hq ▸ h.ordered)
  split
  · next hlt =>
    refine over_inv h fun x hx => ?_
    obtain rfl | hx := mem_cons.1 (hq ▸ hx)
    · exact hlt
    · exact hlt.trans_le (hord.1 x hx).le
  next hdue =>
  refine { h with
    ordered := hord.2, timely := forall_mem_cons.2 ⟨⟨not_lt.1 hdue, hp, h.waiting e he⟩, h.timely⟩
    waiting := fun x hx => h.waiting x (hmem hx), once := perm_middle.trans (.trans ?_ h.once), processed := ?_
    queued := fun x hx => h.queued x (hmem hx), present := forall_mem_cons.2 ⟨hp, h.present⟩ }
  · rw [numbers, numbers, hq]
    exact .refl _
  · intro a n ha
    obtain rfl | hne := eq_or_ne a e.element
    · cases (h.queued e he).symm.trans ha
      exact iff_of_true (update_self ..) mem_cons_self
    · refine (Bool.eq_iff_iff.1 (update_of_ne hne _ _)).trans ((h.processed a n ha).trans ?_)
      refine ⟨mem_cons_of_mem _, fun hn => (mem_cons.1 hn).resolve_left ?_⟩
      rintro rfl
      exact hne ((h.latest a _ ha).2 _ (h.queued e he))

theorem descheduleRoutine_inv {element : Nat} : Inv d (q.descheduleRoutine element).2 := by
  unfold descheduleRoutine
  split
  · exact h
  next e he =>
  obtain ⟨hp, xs, ys, hq, hno⟩ := find?_eq_some_iff_append.1 he
  have herase : q.queue.eraseP (·.element == element) = xs ++ ys := by
    rw [hq, eraseP_append_right _ (by simpa using hno), eraseP_cons_of_pos (by exact hp)]
  have hsub : xs ++ ys <+ q.queue := herase ▸ eraseP_sublist
  rw [herase]
  refine { h with
    ordered := h.ordered.sublist hsub, waiting := fun x hx => h.waiting x (hsub.subset hx), once := .trans ?_ h.once
    queued := fun x hx => h.queued x (hsub.subset hx), dropped := subset_cons_of_subset _ h.dropped }
  rw [numbers, numbers, hq]
  simp only [map_append, map_cons]
  calc _ ~ e.number :: (xs.map (·.number) ++ ys.map (·.number) ++ (q.calls ++ q.dropped)) :=
        (perm_middle.append_left _).trans perm_middle
    _ ~ _ := (perm_middle.append_right _).symm

theorem step_inv (hoff : q.OffQueue l) (hs : q.step addInterval l = some t) : Inv d t := by
  cases l with
  | schedule => exact scheduleRoutine_inv h hoff hs
  | deschedule =>
    cases hs
    exact descheduleRoutine_inv h
  | callBack =>
    cases hs
    split
    · exact h
    · exact scan_inv h le_rfl
  | turn i =>
    obtain ⟨p, hp, rfl⟩ := Option.map_eq_some_iff.1 hs
    exact scan_inv { h with present := fun x hx => h.present x (eraseIdx_subset hx) } (h.present p (mem_of_getElem? hp))
  | advance now =>
    obtain ⟨hle, hs⟩ := Option.ite_none_right_eq_some.1 hs
    cases hs
    exact { h with
      timely := fun c hc => ⟨(h.timely c hc).1, (h.timely c hc).2.1.trans hle, (h.timely c hc).2.2⟩
      present := fun p hp => (h.present p hp).trans hle }

end

/-- A callback and its turns, when nothing else happens. -/
theorem turns (l : List (QueueElement τ)) (hq : q.queue = l) (hord : l.Pairwise before) :
    ∃ t, exec (step addInterval) (q.scan present) (replicate (l.filter (·.time ≤ present)).length (.turn 0)) = some t ∧
      t.called = ((l.filter (·.time ≤ present)).map (·, present)).reverse ++ q.called ∧
      t.numbers = (l.filter (present < ·.time)).map (·.number) ∧ t.presents = q.presents := by
  induction l generalizing q with
  | nil => exact ⟨q.scan present, rfl, by simp [scan, hq, numbers]⟩
  | cons e rest ih =>
    obtain ⟨he, hrest⟩ := pairwise_cons.1 hord
    by_cases hdue : present < e.time
    · have hlater : ∀ x ∈ e :: rest, present < x.time := forall_mem_cons.2 ⟨hdue, fun x hx => hdue.trans_le (he x hx).le⟩
      have hnone : (e :: rest).filter (·.time ≤ present) = [] := filter_eq_nil_iff.2 fun x hx => by simpa using hlater x hx
      have hall : (e :: rest).filter (present < ·.time) = e :: rest := filter_eq_self.2 fun x hx => by simpa using hlater x hx
      rw [hnone, hall]
      exact ⟨_, rfl, by simp [scan, hq, hdue, numbers, QueueElement.pass]⟩
    · obtain ⟨t, ht, hcalled, hleft⟩ := ih (q := { q with
        queue := rest, processed := update q.processed e.element true, called := (e, present) :: q.called }) rfl hrest
      refine ⟨t, ?_, ?_, ?_⟩
      · rw [filter_cons_of_pos (by simpa using hdue), length_cons, replicate_succ, exec, ← ht]
        simp [scan, hq, hdue, step]
      · rw [hcalled, filter_cons_of_pos (by simpa using hdue), map_cons, reverse_cons, append_assoc]
        rfl
      · rw [filter_cons_of_neg (by simpa using hdue)]
        exact hleft

theorem Inv.waits (h : Inv d q) {a n : Nat} (ha : q.last a = some n) (hn : n ∉ q.calls ++ q.dropped) :
    (q.descheduleRoutine a).1 = true := by
  have hmem := h.once.mem_iff.2 (mem_range.2 (h.latest a n ha).1)
  obtain ⟨e, he, rfl⟩ := mem_map.1 ((mem_append.1 hmem).resolve_right hn)
  have := (h.latest a _ ha).2 _ (h.queued e he)
  unfold descheduleRoutine
  split
  · next hnone => exact absurd (beq_iff_eq.2 this.symm) (find?_eq_none.1 hnone e he)
  · rfl

theorem Inv.taken (h : Inv d q) {a : Nat} (htrue : (q.descheduleRoutine a).1 = true) :
    ∃ n, q.last a = some n ∧ n ∉ q.calls ++ q.dropped ∧ Inv [n] (q.descheduleRoutine a).2 := by
  have hinv : Inv d (q.descheduleRoutine a).2 := descheduleRoutine_inv h
  unfold descheduleRoutine at htrue hinv ⊢
  split at htrue
  · cases htrue
  next e he =>
  rw [he] at hinv
  have hmem := mem_of_find?_eq_some he
  refine ⟨e.number, ?_, disjoint_of_nodup_append (h.once.nodup_iff.2 nodup_range) (mem_map_of_mem hmem), { hinv with
    dropped := cons_subset_cons _ (nil_subset _) }⟩
  rw [← show e.element = a by simpa using find?_some he]
  exact h.queued e hmem

/-- A run keeps the promises; `Timer_DescheduleRoutine` returns `TRUE` where the call of the last scheduling was still to
    come, and then it never comes. -/
theorem kept_of_run {clock : τ} {processed : Nat → Bool} (hrun : Run (step addInterval) OffQueue { clock, processed } q) :
    q.Kept ∧ ∀ a, ((q.descheduleRoutine a).1 = true ↔ ∃ n, q.last a = some n ∧ n ∉ q.calls ++ q.dropped) ∧
      ((q.descheduleRoutine a).1 = true → ∀ n, q.last a = some n → ∀ t,
        Run (step addInterval) OffQueue (q.descheduleRoutine a).2 t → n ∉ t.calls) := by
  have hinit : Inv [] ({ clock, processed } : Queue τ) := by
    constructor
    constructor
    all_goals simp [numbers, calls]
  have hinv := hrun.invariant (fun _ _ _ hu hl hs => step_inv hu hl hs) hinit
  refine ⟨hinv.toKept, fun a => ⟨⟨fun htrue => ?_, fun ⟨n, ha, hn⟩ => hinv.waits ha hn⟩, fun htrue n ha t hrest => ?_⟩⟩
  · obtain ⟨n, ha, hn, -⟩ := hinv.taken htrue
    exact ⟨n, ha, hn⟩
  · obtain ⟨m, hm, -, hnext⟩ := hinv.taken htrue
    cases hm.symm.trans ha
    have hend := hrest.invariant (fun _ _ _ hu hl hs => step_inv hu hl hs) hnext
    have hnodup := (nodup_append.1 (hend.once.nodup_iff.2 nodup_range)).2.1
    exact fun hn => disjoint_of_nodup_append hnodup hn (hend.dropped mem_cons_self)

theorem kept_of_run_called : ∃ q : Queue Nat, q.Kept ∧ q.calls = [0] ∧ q.numbers = [1] ∧ (q.descheduleRoutine 1).1 = true :=
  have hrun : Run (step (· + ·)) OffQueue { clock := 0, processed := fun _ => false } _ := run_of_guarded
    [.schedule 1 7 0 (some 3), .advance 4, .callBack, .schedule 1 7 9 none, .turn 0] _ _ rfl
  ⟨_, (kept_of_run hrun).1, rfl, rfl, rfl⟩

/-- A callback that nothing disturbs calls what is due, in order and each once, and leaves the rest. -/
theorem undisturbed_callBack {clock : τ} {processed : Nat → Bool}
    (hrun : Run (step addInterval) OffQueue { clock, processed } q) :
    (q.queue.filter (·.time ≤ q.clock)).Pairwise before ∧
    ∃ t, exec (step addInterval) q (.callBack :: replicate (q.queue.filter (·.time ≤ q.clock)).length (.turn 0)) = some t ∧
      t.called = ((q.queue.filter (·.time ≤ q.clock)).map (·, q.clock)).reverse ++ q.called ∧
      t.numbers = (q.queue.filter (q.clock < ·.time)).map (·.number) ∧ t.presents = q.presents := by
  have hord := (kept_of_run hrun).1.ordered
  refine ⟨hord.filter _, ?_⟩
  cases hq : q.queue with
  | nil => exact ⟨q, by simp [exec, step, hq], rfl, by simp [numbers, hq], rfl⟩
  | cons e rest =>
    obtain ⟨t, ht, hleft⟩ := @turns _ _ addInterval q q.clock _ hq (hq ▸ hord)
    refine ⟨t, ?_, hleft⟩
    rw [exec, ← ht, step, hq]
    rfl

theorem undisturbed_callBack_two : ∃ q t : Queue Nat, q.numbers = [1, 0, 2] ∧
    exec (step (· + ·)) q [.callBack, .turn 0, .turn 0] = some t ∧ t.numbers = [2] ∧ t.calls = [0, 1] := by
  have hrun : Run (step (· + ·)) OffQueue { clock := 0, processed := fun _ => false } _ := run_of_guarded
    [.schedule 1 7 0 (some 3), .schedule 2 7 2 none, .schedule 3 7 9 none, .advance 4] _ _ rfl
  obtain ⟨-, t, ht, hcalled, hleft, -⟩ := undisturbed_callBack hrun
  exact ⟨_, t, rfl, ht, hleft, by rw [calls, hcalled]; rfl⟩

end Queue
end SpriteKernel.Timer
