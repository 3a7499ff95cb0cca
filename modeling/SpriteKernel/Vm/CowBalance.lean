import SpriteKernel.Vm.CowOps

/- Whether the operations of vmCOW.c give back the page locks that they take. -/
namespace SpriteKernel.Vm.Memory
variable {π : Type} {s s' s'' : Memory π} {e : Env π} {n : Nat} {page : Int} {count : Nat}

/-- At every page of the loop of `VmCOWCopySeg` what is resident and copy-on-write has a segment to go to. -/
def copyPaired (e : Env π) (n : Nat) : Nat → Int → Memory π → Prop
  | 0, _, _ => True
  | count + 1, page, s =>
    s.Paired n page ∧ ∀ s', s.copyTurn e n page = some (true, s') → copyPaired e n count (page + 1) s'

/-- The same for that of `VmCOWDeleteFromSeg`. -/
def deletePaired (e : Env π) (n : Nat) : Nat → Int → Memory π → Prop
  | 0, _, _ => True
  | count + 1, page, s =>
    s.Paired n page ∧ ∀ s', s.deleteTurn e n page = some s' → deletePaired e n count (page + 1) s'

theorem paired_of_cow (h : (s.pte n page).cow = false) : s.Paired n page :=
  fun hc => by cases h.symm.trans hc

theorem paired_of_absent (h : (s.pte n page).physRes = false) : s.Paired n page :=
  fun _ hr => by cases h.symm.trans hr

theorem isResident_of (h : (s.pte n page).physRes = true) :
    s.isResident n page = (true, s.lockPage (s.pte n page).pageFrame) := if_pos h

theorem isResident_of_not (h : (s.pte n page).physRes = false) : s.isResident n page = (false, s) := by
  simp [isResident, h]

theorem deleteTurn_outcome (hs : Sound s) (h : s.deleteTurn e n page = some s') :
    Sound s' ∧ Outcome (s.Paired n page) s s' := by
  unfold deleteTurn at h
  cases hcow : (s.pte n page).cow with
  | true =>
    rw [hcow, if_pos rfl] at h
    cases hr : (s.pte n page).physRes with
    | true =>
      rw [isResident_of hr] at h
      exact (cow_resident hs hr hcow h).1
    | false =>
      rw [isResident_of_not hr] at h
      obtain ⟨⟨hs', hst⟩, -⟩ := cow_swap hs h
      exact ⟨hs', hst.outcome (paired_of_absent hr)⟩
  | false =>
    rw [hcow, if_neg (fun h => by cases h)] at h
    have hp : s.Paired n page := paired_of_cow hcow
    split at h
    · cases h
      have hl := Light.recount s n (s.segs n).resPages (s.segs n).numCOWPages ((s.segs n).numCORPages - 1)
        (s.segs n).cowInfoPtr
      exact ⟨hl.sound hs, hl.steady.outcome hp⟩
    · cases h
      exact ⟨hs, (Steady.refl s).outcome hp⟩

theorem deleteLoop_outcome (hs : Sound s) (h : deleteLoop e n count page s = some s') :
    Sound s' ∧ Outcome (deletePaired e n count page s) s s' := by
  induction count generalizing page s with
  | zero =>
    obtain rfl := Option.some.inj h
    exact ⟨hs, (Steady.refl s).outcome trivial⟩
  | succ count ih =>
    unfold deleteLoop at h
    cases ht : s.deleteTurn e n page with
    | none =>
      rw [ht] at h
      nomatch h
    | some t =>
      rw [ht] at h
      obtain ⟨hts, hto⟩ := deleteTurn_outcome hs ht
      obtain ⟨hs', ho⟩ := ih hts h
      have hiff : deletePaired e n (count + 1) page s ↔ s.Paired n page ∧ deletePaired e n count (page + 1) t := by
        simp [deletePaired, ht]
      rw [hiff]
      exact ⟨hs', hto.trans ho hs⟩

variable {r : Bool × Memory π}

/-- The page is validated after it has been copied. -/
theorem copyTurn_outcome (hs : Sound s) (h : s.copyTurn e n page = some r) :
    Sound r.2 ∧ Outcome (s.Paired n page) s r.2 := by
  unfold copyTurn at h
  cases hcow : (s.pte n page).cow with
  | true =>
    have hsound := hs.linked.sound n page
    have hcor : (s.pte n page).cor = false := by
      cases hc : (s.pte n page).cor with
      | false => rfl
      | true => cases (hsound.cor hc).2.2.symm.trans hcow
    have hvalid : ∀ t : Memory π, Sound t → t.pte n page = { s.pte n page with cow := false } →
        Sound (t.pageValidate n page) ∧ Steady t (t.pageValidate n page) := by
      intro t ht htp
      apply pageValidate_done ht
      · rw [htp]
        exact hcor
      · rw [htp]
        exact fun hr => hsound.absent hr (.inl hcow)
    rw [hcow, if_pos rfl] at h
    cases hr : (s.pte n page).physRes with
    | true =>
      rw [isResident_of hr] at h
      obtain ⟨t, ht, rfl⟩ := Option.map_eq_some_iff.1 h
      obtain ⟨⟨hs', ho⟩, htp⟩ := cow_resident hs hr hcow ht
      obtain ⟨hv, hst⟩ := hvalid t hs' (htp rfl)
      refine ⟨hv, ?_⟩
      simpa using ho.trans (hst.outcome trivial) hs
    | false =>
      rw [isResident_of_not hr] at h
      obtain ⟨t, ht, rfl⟩ := Option.map_eq_some_iff.1 h
      obtain ⟨⟨hs', hst⟩, htp⟩ := cow_swap hs ht
      obtain ⟨hv, hst'⟩ := hvalid t hs' htp
      exact ⟨hv, (hst.trans hst').outcome (paired_of_absent hr)⟩
  | false =>
    rw [hcow, if_neg (fun h => by cases h)] at h
    have hp : s.Paired n page := paired_of_cow hcow
    split at h
    next hc =>
      obtain ⟨hs', hst⟩ := cor_done hs hc h
      exact ⟨hs', hst.outcome hp⟩
    · cases h
      exact ⟨hs, (Steady.refl s).outcome hp⟩

theorem copyLoop_outcome (hs : Sound s) (h : copyLoop e n count page s = some r) :
    Sound r.2 ∧ Outcome (copyPaired e n count page s) s r.2 := by
  induction count generalizing page s with
  | zero =>
    cases h
    exact ⟨hs, (Steady.refl s).outcome trivial⟩
  | succ count ih =>
    unfold copyLoop at h
    rcases ht : s.copyTurn e n page with _ | ⟨ok, t⟩
    · rw [ht] at h
      nomatch h
    · obtain ⟨hts, hto⟩ := copyTurn_outcome hs ht
      rw [ht] at h
      cases ok with
      | true =>
        obtain ⟨hs', ho⟩ := ih hts h
        have hiff : copyPaired e n (count + 1) page s ↔ s.Paired n page ∧ copyPaired e n count (page + 1) t := by
          simp [copyPaired, ht]
        rw [hiff]
        exact ⟨hs', hto.trans ho hs⟩
      | false =>
        cases h
        have hiff : copyPaired e n (count + 1) page s ↔ s.Paired n page := by
          simp [copyPaired, ht]
        rw [hiff]
        exact ⟨hts, hto⟩

theorem vmCOR_done (m : Params) (hs : Sound s) (h : s.vmCOR m e n page = some r) : Sound r.2 ∧ Steady s r.2 := by
  unfold vmCOR at h
  split at h
  · cases h
    exact ⟨hs, Steady.refl s⟩
  · split at h
    · cases h
      exact (Light.cowEnd s m n).after ⟨hs, Steady.refl s⟩
    next hc =>
      obtain ⟨r', hr', rfl⟩ := Option.map_eq_some_iff.1 h
      rw [Bool.not_eq_false] at hc
      exact (Light.cowEnd _ m n).after (cor_done hs hc hr')

theorem Outcome.end {P : Prop} (m : Params) (n : Nat) (hs : Sound s) (h : Sound s' ∧ Outcome P s s') :
    Sound (s'.cowEnd m n) ∧ Outcome P s (s'.cowEnd m n) := by
  have hl := Light.cowEnd s' m n
  refine ⟨hl.sound h.1, ?_⟩
  simpa using h.2.trans (hl.steady.outcome trivial) hs

theorem vmCOW_outcome (m : Params) (hs : Sound s) (h : s.vmCOW m e n page = some s') :
    Sound s' ∧ Outcome ((s.segs n).cowInfoPtr ≠ none → s.Paired n page) s s' := by
  unfold vmCOW at h
  split at h
  next hnone =>
    cases h
    exact ⟨hs, (Steady.refl s).outcome fun hn => absurd hnone hn⟩
  next hn =>
    have hiff : ((s.segs n).cowInfoPtr ≠ none → s.Paired n page) ↔ s.Paired n page := ⟨fun hp => hp hn, fun hp _ => hp⟩
    rw [hiff]
    split at h
    next hc =>
      cases h
      exact Outcome.end m n hs ⟨hs, (Steady.refl s).outcome (paired_of_cow hc)⟩
    next hc =>
      rw [Bool.not_eq_false] at hc
      cases hr : (s.pte n page).physRes with
      | true =>
        rw [isResident_of hr] at h
        obtain ⟨t, ht, rfl⟩ := Option.map_eq_some_iff.1 h
        exact Outcome.end m n hs (cow_resident hs hr hc ht).1
      | false =>
        rw [isResident_of_not hr] at h
        cases h
        exact Outcome.end m n hs ⟨hs, (Steady.refl s).outcome (paired_of_absent hr)⟩

theorem vmCOWCopySeg_outcome (m : Params) (hs : Sound s)
    (h : s.vmCOWCopySeg m e n = some r) :
    Sound r.2 ∧ Outcome ((s.segs n).cowInfoPtr ≠ none →
      copyPaired e n (s.segs n).numPages.toNat ((s.segs n).firstPage m) s) s r.2 := by
  unfold vmCOWCopySeg at h
  split at h
  next hnone =>
    cases h
    exact ⟨hs, (Steady.refl s).outcome fun hn => absurd hnone hn⟩
  next hn =>
    obtain ⟨r', hr', rfl⟩ := Option.map_eq_some_iff.1 h
    simp only [ne_eq, hn, not_false_eq_true, forall_const]
    exact Outcome.end m n hs (copyLoop_outcome hs hr')

/-- The pages that `VmCOWDeleteFromSeg` goes through. -/
def deleteRange (s : Memory π) (m : Params) (n : Nat) (firstPage lastPage : Int) : Int × Int :=
  if firstPage = -1 then ((s.segs n).firstPage m, (s.segs n).lastPage m) else (firstPage, lastPage)

theorem vmCOWDeleteFromSeg_outcome (m : Params) {firstPage lastPage : Int} (hs : Sound s)
    (h : s.vmCOWDeleteFromSeg m e n firstPage lastPage = some s') :
    Sound s' ∧ Outcome ((s.segs n).cowInfoPtr ≠ none →
      deletePaired e n ((s.deleteRange m n firstPage lastPage).2 - (s.deleteRange m n firstPage lastPage).1 + 1).toNat
        (s.deleteRange m n firstPage lastPage).1 s) s s' := by
  have hrange : s.deleteRange m n firstPage lastPage =
      (if firstPage = -1 then (s.segs n).firstPage m else firstPage,
        if firstPage = -1 then (s.segs n).lastPage m else lastPage) := by
    unfold deleteRange
    split <;> rfl
  rw [hrange]
  unfold vmCOWDeleteFromSeg at h
  by_cases hn : (s.segs n).cowInfoPtr = none
  · rw [if_pos hn] at h
    cases h
    exact ⟨hs, (Steady.refl s).outcome fun h => absurd hn h⟩
  · rw [if_neg hn] at h
    obtain ⟨t, ht, rfl⟩ := Option.map_eq_some_iff.1 h
    simp only [ne_eq, hn, not_false_eq_true, forall_const]
    exact Outcome.end m n hs (deleteLoop_outcome hs ht)

end SpriteKernel.Vm.Memory
