import SpriteKernel.Fsconsist.ClientList

/- What the client list says one host has open. The routines of `fsconsistIOClient.c`
   change it for the host they are called for and for no other. -/
namespace SpriteKernel.Fsconsist

open SpriteKernel KeyedList

namespace ClientList

/-- The use counts of a client, zero where it has no entry. -/
def useOf (l : ClientList) (clientID : HostId) : UseCounts :=
  match l.client clientID with
  | some c => c.use
  | none => 0

variable {l : ClientList} {clientID : HostId} {c : ClientInfo}

theorem useOf_of_client (h : l.client clientID = some c) : l.useOf clientID = c.use := by
  unfold useOf
  rw [h]

theorem useOf_of_none (h : l.client clientID = none) : l.useOf clientID = 0 := by
  unfold useOf
  rw [h]

theorem client_of_useOf_ne (h : l.useOf clientID ≠ 0) : ∃ c, l.client clientID = some c := by
  cases hc : l.client clientID with
  | some c => exact ⟨c, rfl⟩
  | none => exact absurd (useOf_of_none hc) h

variable {f : ClientInfo → ClientInfo} {k : HostId}

theorem client_updateClient_of_ne (hf : KeepsKeys f) (hne : k ≠ clientID) : (l.updateClient clientID f).client k = l.client k := by
  refine find?_updateFirst_of_ne (fun c hc => ?_) l
  have hid : c.clientID = clientID := by simpa using hc
  have hfid : (f c).clientID = clientID := (hf c).1.trans hid
  exact ⟨by simpa [hid] using hne.symm, by simpa [hfid] using hne.symm⟩

theorem client_updateClient_self (hf : KeepsKeys f) (h : l.client clientID = some c) :
    (l.updateClient clientID f).client clientID = some (f c) := by
  refine find?_updateFirst_self h ?_
  simpa [(hf c).1] using (mem_of_client h).2

theorem client_removeClient_of_ne (hne : k ≠ clientID) : (l.removeClient clientID).client k = l.client k := by
  refine find?_eraseP_of_ne (fun c hc => ?_) l
  have hid : c.clientID = clientID := by simpa using hc
  simpa [hid] using hne.symm

variable {fresh : Nat}

theorem client_removeClient_self (hw : l.Wf fresh) (clientID : HostId) :
    (l.removeClient clientID).client clientID = none :=
  find?_eraseP_key hw.ids clientID

/-- Setting the counts of a client to `use`, where the others keep theirs. -/
theorem useOf_updateClient (hf : KeepsKeys f) (h : l.client clientID = some c) (k : HostId) :
    (l.updateClient clientID f).useOf k = if k = clientID then (f c).use else l.useOf k := by
  split
  · next hk =>
    rw [hk]
    exact useOf_of_client (client_updateClient_self hf h)
  · next hk =>
    unfold useOf
    rw [client_updateClient_of_ne hf hk]

theorem useOf_removeClient (hw : l.Wf fresh) (clientID k : HostId) :
    (l.removeClient clientID).useOf k = if k = clientID then 0 else l.useOf k := by
  split
  · next hk =>
    rw [hk]
    exact useOf_of_none (client_removeClient_self hw clientID)
  · next hk =>
    unfold useOf
    rw [client_removeClient_of_ne hk]

theorem useOf_findOrInsert (fresh : Nat) (clientID : HostId) (l : ClientList) :
    (∀ k, (l.findOrInsert fresh clientID).useOf k = l.useOf k) ∧
      ∃ c, (l.findOrInsert fresh clientID).client clientID = some c := by
  unfold findOrInsert
  cases hc : l.client clientID with
  | some c => exact ⟨fun _ => rfl, c, hc⟩
  | none =>
    refine ⟨fun k => ?_, _, List.find?_cons_of_pos (by simp)⟩
    by_cases hk : k = clientID
    · have hnew : (l.insertClient fresh clientID).client k = some ⟨fresh, clientID, 0, false, 0, false, false⟩ :=
        List.find?_cons_of_pos (by simp [hk])
      rw [useOf_of_client hnew, hk, useOf_of_none hc]
    · have hold : (l.insertClient fresh clientID).client k = l.client k :=
        List.find?_cons_of_neg (by simpa using Ne.symm hk)
      unfold useOf
      rw [hold]

theorem useOf_ioClientOpen (fresh : Nat) (clientID : HostId) (useFlags : UseFlags) (cached : Bool)
    (l : ClientList) (k : HostId) :
    (l.ioClientOpen fresh clientID useFlags cached).useOf k =
      l.useOf k + if k = clientID then UseCounts.ofFlags useFlags else 0 := by
  obtain ⟨hsame, c, hc⟩ := useOf_findOrInsert fresh clientID l
  unfold ioClientOpen
  rw [useOf_updateClient (keepsKeys_open useFlags cached) hc]
  split
  · next hk =>
    have hcu : l.useOf clientID = c.use := by rw [← hsame, useOf_of_client hc]
    rw [hk, hcu]
    rfl
  · rw [hsame, add_zero]

variable {flags : UseFlags} {cache : Bool} {r : CloseResult}

/-- A close counts one stream less for its client; without references an entry counts for nothing. -/
theorem useOf_ioClientClose (hw : l.Wf fresh) (h : l.ioClientClose clientID flags cache = .ok r) (hf : r.found = true)
    (hz : (l.useOf clientID - UseCounts.ofFlags flags).ref = 0 → l.useOf clientID = UseCounts.ofFlags flags)
    (k : HostId) :
    r.list.useOf k = l.useOf k - if k = clientID then UseCounts.ofFlags flags else 0 := by
  rcases ioClientClose_spec h with ⟨-, rfl⟩ | ⟨c, hc, -, -, -, -, hlist⟩
  · simp at hf
  · have hcu := useOf_of_client hc
    rw [hcu] at hz
    rcases hlist with ⟨hgone, hlist⟩ | ⟨-, hlist⟩
    · simp only [Bool.and_eq_true, beq_iff_eq] at hgone
      rw [hlist, useOf_removeClient hw]
      split
      · next hk => rw [hk, hcu, hz hgone.1.2, sub_self]
      · rw [sub_zero]
    · rw [hlist, useOf_updateClient (keepsKeys_setUse _) hc]
      split
      · next hk =>
        rw [hk, hcu]
        rfl
      · rw [sub_zero]

theorem ioClientClose_of_nonneg (hc : l.client clientID = some c) (h : c.use.negative = false)
    (h' : (c.use - UseCounts.ofFlags flags).negative = false) :
    ∃ r, l.ioClientClose clientID flags cache = .ok r ∧ r.found = true := by
  unfold ioClientClose
  simp only [hc, h, h', Bool.false_eq_true, if_false]
  split
  · exact ⟨_, rfl, rfl⟩
  · exact ⟨_, rfl, rfl⟩

theorem useOf_ioClientKill (hw : l.Wf fresh) (clientID : HostId) :
    (l.ioClientKill clientID).1 = l.useOf clientID ∧
      ∀ k, (l.ioClientKill clientID).2.useOf k = if k = clientID then 0 else l.useOf k := by
  unfold ioClientKill
  cases hc : l.client clientID with
  | none =>
    refine ⟨(useOf_of_none hc).symm, fun k => ?_⟩
    by_cases hk : k = clientID
    · rw [if_pos hk, hk, useOf_of_none hc]
    · rw [if_neg hk]
  | some c =>
    refine ⟨(useOf_of_client hc).symm, fun k => ?_⟩
    simp only
    split
    · exact useOf_updateClient (keepsKeys_setUse 0) hc k
    · exact useOf_removeClient hw clientID k

theorem Wf.ioClientClose (h : Wf fresh l) (hr : l.ioClientClose clientID flags cache = .ok r) : Wf fresh r.list := by
  rcases ioClientClose_spec hr with ⟨-, rfl⟩ | ⟨c, -, -, -, -, -, hlist⟩
  · exact h
  · rcases hlist with ⟨-, hlist⟩ | ⟨-, hlist⟩
    · rw [hlist]
      exact h.removeClient clientID
    · rw [hlist]
      exact h.updateClient clientID (keepsKeys_setUse _)

/-- The client has a stream with these flags open: its counts can be those of streams beside it. -/
def Has (l : ClientList) (clientID : HostId) (flags : UseFlags) : Prop :=
  (l.useOf clientID - UseCounts.ofFlags flags).Feasible

instance (l : ClientList) (clientID : HostId) (flags : UseFlags) : Decidable (l.Has clientID flags) :=
  inferInstanceAs (Decidable (UseCounts.Feasible _))

section
variable (h : l.Has clientID flags)
include h

theorem Has.feasible : (l.useOf clientID).Feasible := by
  have hsum := UseCounts.Feasible.add h (UseCounts.feasible_ofFlags flags)
  rwa [sub_add_cancel] at hsum

theorem Has.ref_pos : 0 < (l.useOf clientID).ref := by
  obtain ⟨hwrite, -, hle, -⟩ := h
  have hone : (l.useOf clientID - UseCounts.ofFlags flags).ref = (l.useOf clientID).ref - 1 := rfl
  omega

/-- A close of what its client has open goes through, and counts that stream less. -/
theorem Has.ioClientClose (hw : l.Wf fresh) (cache : Bool) :
    ∃ r, l.ioClientClose clientID flags cache = .ok r ∧ r.found = true ∧ r.list.Wf fresh ∧
      ∀ k, r.list.useOf k = l.useOf k - if k = clientID then UseCounts.ofFlags flags else 0 := by
  have hone : l.useOf clientID ≠ 0 := by
    intro hz
    have hpos := h.ref_pos
    rw [hz] at hpos
    exact absurd hpos (by decide)
  obtain ⟨c, hc⟩ := client_of_useOf_ne hone
  have hcu := useOf_of_client hc
  have hall := h.feasible
  unfold Has at h
  rw [hcu] at h hall
  obtain ⟨r, hr, hfound⟩ := @ioClientClose_of_nonneg _ _ _ _ cache hc hall.not_negative h.not_negative
  refine ⟨r, hr, hfound, hw.ioClientClose hr, useOf_ioClientClose hw hr hfound (fun hz => ?_)⟩
  rw [hcu] at hz ⊢
  exact sub_eq_zero.mp (h.eq_zero hz)

end

end ClientList

end SpriteKernel.Fsconsist
