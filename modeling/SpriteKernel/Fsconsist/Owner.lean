import SpriteKernel.Fsconsist.Interference

/- The owner of `FS_CONSIST_IN_PROGRESS`. The flag is a lock made by hand: it is
   taken after a wait for it to be clear, kept while call-backs give the monitor up,
   and given back at the end of `EndConsistency`. -/
namespace SpriteKernel.Fsconsist

open SpriteKernel KeyedList Transition

/-! ## The rule of a traversal -/

variable {env : Env} {p : Pid} {s s' : Info} {flags : CmdFlags} {c : ClientInfo} {e : Panic}

theorem clientCommand_ok {m : Option ConsistMsgInfo} (h : clientCommand env p c flags s = .ok (s', m)) :
    (c.clientID = env.rpc_SpriteID ∧ m = none ∧ s' = commandSelf c flags (logCommand p c flags s)) ∨
      (c.clientID ≠ env.rpc_SpriteID ∧ s.flags.inProgress = true ∧ m = some (newMsg c flags s) ∧
        s' = commandPost c flags (logCommand p c flags s)) := by
  simp only [clientCommand] at h
  by_cases hid : c.clientID = env.rpc_SpriteID
  · simp only [hid, beq_self_eq_true, if_true, Except.ok.injEq, Prod.mk.injEq] at h
    exact .inl ⟨hid, h.2.symm, h.1.symm⟩
  · simp only [beq_iff_eq, hid, if_false] at h
    split at h
    · simp at h
    · split at h
      · simp at h
      · next hin =>
        simp only [Except.ok.injEq, Prod.mk.injEq] at h
        exact .inr ⟨hid, by simpa [logCommand] using hin, h.2.symm, h.1.symm⟩

theorem clientCommand_self (h : clientCommand env p c flags s = .ok (s', none)) :
    c.clientID = env.rpc_SpriteID ∧ s' = commandSelf c flags (logCommand p c flags s) := by
  obtain ⟨hid, -, hs⟩ | ⟨-, -, hm, -⟩ := clientCommand_ok h
  · exact ⟨hid, hs⟩
  · cases hm

theorem clientCommand_post {msg : ConsistMsgInfo}
    (h : clientCommand env p c flags s = .ok (s', some msg)) : c.clientID ≠ env.rpc_SpriteID ∧
      s.flags.inProgress = true ∧ msg = newMsg c flags s ∧ s' = commandPost c flags (logCommand p c flags s) := by
  obtain ⟨-, hm, -⟩ | ⟨hid, hin, hm, hs⟩ := clientCommand_ok h
  · cases hm
  · exact ⟨hid, hin, Option.some.inj hm, hs⟩

theorem clientCommand_error (h : clientCommand env p c flags s = .error e) (hin : s.flags.inProgress = true) :
    e ≠ .consistFlagNotSet := by
  simp only [clientCommand, logCommand, hin] at h
  split at h
  · simp at h
  · split at h
    · obtain rfl := Except.error.inj h
      simp
    · simp at h

variable {a : Scan} {ptrs : List Nat} {loc : Locals} {i : Info} {c : Pc} {r : Request}

/-- What holds at the entry and is kept by every visit holds where the monitor is given up or the traversal ends. -/
theorem traverse_rule (J : Locals → List Nat → Info → Prop)
    (Post : Info → Pc → Prop)
    (skip : ∀ loc q rest s c, J loc (q :: rest) s → s.clientList.find? (fun d => d.ptr == q) = some c →
      a.command loc.cacheable s.lastWriter c = none → J (loc.visit c) rest (unlockAndPin q rest.head? s))
    (self : ∀ loc q rest s c flags, J loc (q :: rest) s →
      s.clientList.find? (fun d => d.ptr == q) = some c →
      a.command loc.cacheable s.lastWriter c = some flags → c.clientID = env.rpc_SpriteID →
      J (loc.visit c) rest (commandSelf c flags (logCommand p c flags (unlockAndPin q rest.head? s))))
    (posted : ∀ loc q rest s c flags, J loc (q :: rest) s →
      s.clientList.find? (fun d => d.ptr == q) = some c →
      a.command loc.cacheable s.lastWriter c = some flags → c.clientID ≠ env.rpc_SpriteID →
      s.flags.inProgress = true →
      Post (commandPost c flags (logCommand p c flags (unlockAndPin q rest.head? s)))
        (.inRpc (.scanning a (loc.visit c) rest.head?) (newMsg c flags s)))
    (done : ∀ loc s, J loc [] s → Post (afterTraversal a loc s).1 (afterTraversal a loc s).2)
    (hj : J loc ptrs s)
    (h : traverse env p a loc ptrs s = .ok (i, c)) : Post i c := by
  induction ptrs generalizing loc s with
  | nil =>
    simp only [traverse, Except.ok.injEq] at h
    have := done loc s hj
    rwa [h] at this
  | cons q rest ih =>
    unfold traverse at h
    cases hf : s.clientList.find? (fun d => d.ptr == q) with
    | none => simp [hf] at h
    | some d =>
      simp only [hf] at h
      -- a visit changes neither `cacheable` nor `lastWriter`
      have hcmd : a.command (loc.visit d).cacheable (unlockAndPin q rest.head? s).lastWriter d =
          a.command loc.cacheable s.lastWriter d := rfl
      rw [hcmd] at h
      cases hc : a.command loc.cacheable s.lastWriter d with
      | none =>
        rw [hc] at h
        exact ih (skip loc q rest s d hj hf hc) h
      | some flags =>
        simp only [hc] at h
        split at h
        · simp at h
        · next s' hx =>
          obtain ⟨hid, rfl⟩ := clientCommand_self hx
          exact ih (self loc q rest s d flags hj hf hc hid) h
        · next s' msg hx =>
          obtain ⟨rfl, rfl⟩ := h
          obtain ⟨hid, hin, rfl, rfl⟩ := clientCommand_post hx
          exact posted loc q rest s d flags hj hf hc hid hin

theorem traverse_error (hin : s.flags.inProgress = true) (h : traverse env p a loc ptrs s = .error e) :
    e ≠ .consistFlagNotSet := by
  induction ptrs generalizing loc s with
  | nil => simp [traverse] at h
  | cons q rest ih =>
    unfold traverse at h
    split at h
    · obtain rfl := Except.error.inj h
      simp
    · simp only at h
      split at h
      · refine ih ?_ h
        exact hin
      · split at h
        · next hx =>
          obtain rfl := Except.error.inj h
          exact clientCommand_error hx hin
        · next s' hx =>
          obtain ⟨-, rfl⟩ := clientCommand_self hx
          refine ih ?_ h
          exact hin
        · simp at h

/-! ## One owner -/

/-- What a stretch leaves that owned the flag, or found it clear. -/
structure Owned (i : Info) (c : Pc) : Prop where
  wf : i.clientList.Wf i.fresh
  active : c.active = i.flags.inProgress
  quiet : i.flags.inProgress = false → i.msgList = []

section
variable (hw : s.clientList.Wf s.fresh)
include hw

/-- Well-formedness through the pieces of a stretch. -/
theorem wf_unlockAndPin (q : Nat) (next : Option Nat) :
    (unlockAndPin q next s).clientList.Wf (unlockAndPin q next s).fresh := by
  have h₁ := hw.updateAt q (ClientList.keepsKeys_setLocked false)
  cases next with
  | none => exact h₁
  | some r => exact h₁.updateAt r (ClientList.keepsKeys_setLocked true)

theorem wf_commandSelf (p : Pid) (c : ClientInfo)
    (flags : CmdFlags) :
    (commandSelf c flags (logCommand p c flags s)).clientList.Wf
      (commandSelf c flags (logCommand p c flags s)).fresh :=
  (below_commandSelf c flags (logCommand p c flags s)).wf hw

theorem wf_updateList (clientID : HostId)
    (useFlags : UseFlags) (cacheable : Bool) :
    (updateList clientID useFlags cacheable s).clientList.Wf
      (updateList clientID useFlags cacheable s).fresh :=
  (hw.ioClientOpen clientID useFlags cacheable).updateClient clientID
    (ClientList.keepsKeys_setOpenTimeStamp _)

section
variable (hin : s.flags.inProgress = true)
include hin

theorem owned_endConsistency
    : Owned (endConsistency a loc s).1 (endConsistency a loc s).2 := by
  unfold endConsistency
  split
  · next he => exact ⟨hw, rfl, fun _ => by simpa [finishEnd] using he⟩
  · exact ⟨hw, hin.symm, fun h => by simp [hin] at h⟩

theorem owned_afterTraversal
    : Owned (afterTraversal a loc s).1 (afterTraversal a loc s).2 := by
  unfold afterTraversal
  cases a with
  | fileConsistency clientID useFlags => exact owned_endConsistency (wf_updateList hw _ _ _) hin
  | reopenConsistency clientID useFlags =>
    refine owned_endConsistency ?_ hin
    exact hw.updateClient clientID (fun _ => ⟨rfl, rfl⟩)
  | migrateConsistency dst useFlags =>
    simp only
    split
    · exact owned_endConsistency (wf_updateList hw _ _ _) hin
    · exact owned_endConsistency hw hin
  | getClientAttrs clientID => exact owned_endConsistency hw hin

theorem owned_traverse
    (h : traverse env p a loc ptrs s = .ok (i, c)) : Owned i c := by
  refine traverse_rule (fun _ _ s => s.clientList.Wf s.fresh ∧ s.flags.inProgress = true) Owned
    ?_ ?_ ?_ ?_ ⟨hw, hin⟩ h
  · intro loc q rest s c hj _ _
    exact ⟨wf_unlockAndPin hj.1 q _, hj.2⟩
  · intro loc q rest s c flags hj _ _ _
    exact ⟨wf_commandSelf (wf_unlockAndPin hj.1 q _) p c flags, hj.2⟩
  · intro loc q rest s c flags hj _ _ _ _
    refine ⟨(wf_unlockAndPin hj.1 q _).mono (Nat.le_succ _), ?_, ?_⟩
    · exact hj.2.symm
    · intro hn
      exact absurd (hj.2.symm.trans hn) (by simp)
  · intro loc s hj
    exact owned_afterTraversal hj.1 hj.2

end

theorem owned_removeLoop {clientID : HostId} {l : ClientList} (hm : s.msgList = [])
    (h : removeLoop env p clientID l s = .ok (i, c)) : Owned i c := by
  induction l generalizing s with
  | nil =>
    obtain ⟨rfl, rfl⟩ := h
    exact ⟨hw, rfl, fun _ => hm⟩
  | cons d l ih =>
    unfold removeLoop at h
    split at h
    · split at h
      · simp at h
      · next s' msg hx =>
        obtain ⟨rfl, rfl⟩ := h
        obtain ⟨-, hin, -, rfl⟩ := clientCommand_post hx
        exact ⟨hw.mono (Nat.le_succ _), hin.symm, fun hf => absurd (hin.symm.trans hf) (by simp)⟩
      · next s' hx =>
        obtain ⟨-, rfl⟩ := clientCommand_self hx
        have hw' := wf_commandSelf hw p d { deleteFile := true }
        split at h
        · refine ih ?_ ?_ h
          · exact hw'.removeClient d.clientID
          · exact hm
        · next hne => exact absurd hm (by simpa [commandSelf, logCommand] using hne)
    · refine ih ?_ ?_ h
      · exact hw.removeClient d.clientID
      · exact hm

theorem owned_fetchLoop {invalidate : Bool} (hm : s.msgList = [])
    (h : fetchLoop env p invalidate ptrs s = .ok (i, c)) : Owned i c := by
  induction ptrs generalizing s with
  | nil =>
    obtain ⟨rfl, rfl⟩ := h
    exact ⟨hw, rfl, fun _ => hm⟩
  | cons q rest ih =>
    have hpin := wf_unlockAndPin hw q rest.head?
    unfold fetchLoop at h
    split at h
    · simp at h
    · next d hd =>
      simp only at h
      split at h
      · simp at h
      · split at h
        · exact ih hpin hm h
        · split at h
          · simp at h
          · next s' msg hx =>
            obtain ⟨rfl, rfl⟩ := h
            obtain ⟨-, hin, -, rfl⟩ := clientCommand_post hx
            exact ⟨hpin.mono (Nat.le_succ _), hin.symm, fun hf => absurd (hin.symm.trans hf) (by simp)⟩
          · next s' hx =>
            obtain ⟨-, rfl⟩ := clientCommand_self hx
            have hw' := wf_commandSelf hpin p d
              { writeBackBlocks := true, invalidateBlocks := invalidate }
            split at h
            · refine ih ?_ ?_ h
              · exact hw'
              · exact hm
            · next hne => exact absurd hm (by simpa [commandSelf, logCommand, unlockAndPin] using hne)

theorem owned_start {a : Action} (hclear : s.flags.inProgress = false) (hm : s.msgList = [])
    (h : start env p a s = .ok (i, c)) : Owned i c := by
  unfold start at h
  cases a with
  | scan a =>
    refine owned_traverse ?_ ?_ h
    · exact hw
    · rfl
  | clientRemoveCallback clientID =>
    refine owned_removeLoop ?_ ?_ h
    · exact hw
    · exact hm
  | fetchDirtyBlocks invalidate =>
    simp only at h
    split at h
    · simp only [Except.ok.injEq, Prod.mk.injEq] at h
      obtain ⟨rfl, rfl⟩ := h
      exact ⟨hw, hclear.symm, fun _ => hm⟩
    · refine owned_fetchLoop ?_ ?_ h
      · exact hw
      · exact hm

theorem owned_continueLoop {l : Loop} (hm : s.msgList = []) (h : continueLoop env p l s = .ok (i, c)) : Owned i c := by
  cases l with
  | removing clientID cur =>
    refine owned_removeLoop ?_ ?_ h
    · exact hw.removeClient cur
    · exact hm
  | fetching invalidate next => exact owned_fetchLoop hw hm h

theorem owned_endWait {f : EndFrame} (hm : s.msgList = []) (h : endWait env p f s = .ok (i, c)) : Owned i c := by
  cases f with
  | ending a loc =>
    obtain ⟨rfl, rfl⟩ := h
    exact ⟨hw, rfl, fun _ => hm⟩
  | loop l =>
    refine owned_continueLoop ?_ ?_ h
    · exact hw
    · exact hm

theorem owned_resume {f : CallFrame} (hin : s.flags.inProgress = true) (h : resume env p f s = .ok (i, c)) :
    Owned i c := by
  cases f with
  | scanning a loc next => exact owned_traverse hw hin h
  | loop l =>
    simp only [resume] at h
    split at h
    · next he =>
      refine owned_continueLoop ?_ ?_ h
      · exact hw
      · simpa [finishEnd] using he
    · simp only [Except.ok.injEq, waitInLoop, Prod.mk.injEq] at h
      obtain ⟨rfl, rfl⟩ := h
      exact ⟨hw, hin.symm, fun hf => absurd (hin.symm.trans hf) (by simp)⟩

end

/-- The first stretch of a call is over before the flag is looked for, or finds it
set. -/
inductive Parked : Pc → Prop
  | waitDone (a : Action) : Parked (.waitDone a)
  | unused (a : Scan) (t : Nat) : Parked (.returned (.scan a) { openTimeStamp := t } .success)

theorem Parked.inactive (h : Parked c) : c.active = false := by
  cases h <;> rfl

/-- The first stretch of a call owns nothing and lowers the list at most, or found the flag clear. -/
theorem enter_cases (hw : s.clientList.Wf s.fresh) (h : r.enter env p s = .ok (i, c)) : (Parked c ∧ Interferes s i) ∨
      ∃ a s', s.flags.inProgress = false ∧ Interferes s s' ∧ start env p a s' = .ok (i, c) := by
  have hbegin : ∀ a s', Interferes s s' → beginOrWait env p a s' = .ok (i, c) →
      (Parked c ∧ Interferes s i) ∨
        ∃ a s', s.flags.inProgress = false ∧ Interferes s s' ∧ start env p a s' = .ok (i, c) := by
    intro a s' hs hb
    unfold beginOrWait at hb
    split at hb
    · simp only [Except.ok.injEq, Prod.mk.injEq] at hb
      obtain ⟨rfl, rfl⟩ := hb
      exact .inl ⟨.waitDone a, hs⟩
    · next hn => exact .inr ⟨a, s', hs.inProgress ▸ (by simpa using hn), hs, hb⟩
  cases r with
  | fileConsistency clientID useFlags => exact hbegin _ s (Interferes.refl s) h
  | reopenConsistency clientID use swap cacheable =>
    simp only [Request.enter, reopenConsistency] at h
    split at h
    · simp only [Except.ok.injEq, Prod.mk.injEq] at h
      obtain ⟨rfl, rfl⟩ := h
      exact .inl ⟨.unused _ _, rfl, Below.of_sublist List.eraseP_sublist, .inl rfl,
        List.Sublist.refl _, rfl, rfl⟩
    · exact hbegin _ s (Interferes.refl s) h
  | migrateConsistency src dst useFlags closeSrc =>
    simp only [Request.enter, migrateConsistency] at h
    split at h
    · split at h
      · simp at h
      · next r hr =>
        refine hbegin _ _ ?_ h
        exact ⟨rfl, below_ioClientClose hw hr, .inl rfl, List.Sublist.refl _, rfl, rfl⟩
    · exact hbegin _ s (Interferes.refl s) h
  | getClientAttrs clientID => exact hbegin _ s (Interferes.refl s) h
  | clientRemoveCallback clientID => exact hbegin _ s (Interferes.refl s) h
  | fetchDirtyBlocks invalidate => exact hbegin _ s (Interferes.refl s) h

/-- The first stretch of a call leaves all but its own client's entry while an action is in progress. -/
theorem enter_inProgress (hin : s.flags.inProgress = true) (h : r.enter env p s = .ok (i, c)) : i = s ∨
      (∃ src dst useFlags res, r = .migrateConsistency src dst useFlags true ∧
        s.clientList.ioClientClose src useFlags (s.lastWriter == some src) = .ok res ∧
        i = { s with clientList := res.list }) ∨
      ∃ clientID use swap cacheable, r = .reopenConsistency clientID use swap cacheable ∧
        reopenFlags use swap cacheable = {} ∧ i = { s with clientList := s.clientList.removeClient clientID } := by
  have hbegin : ∀ a s', s'.flags.inProgress = true → beginOrWait env p a s' = .ok (i, c) → i = s' := by
    intro a s' hin' hb
    simp only [beginOrWait, hin', if_true, Except.ok.injEq, Prod.mk.injEq] at hb
    exact hb.1.symm
  cases r with
  | fileConsistency clientID useFlags => exact .inl (hbegin _ s hin h)
  | reopenConsistency clientID use swap cacheable =>
    simp only [Request.enter, reopenConsistency] at h
    split at h
    · next hz =>
      simp only [Except.ok.injEq, Prod.mk.injEq] at h
      exact .inr (.inr ⟨clientID, use, swap, cacheable, rfl, hz, h.1.symm⟩)
    · exact .inl (hbegin _ s hin h)
  | migrateConsistency src dst useFlags closeSrc =>
    simp only [Request.enter, migrateConsistency] at h
    split at h
    · next hclose =>
      split at h
      · simp at h
      · next res hres =>
        subst hclose
        refine .inr (.inl ⟨src, dst, useFlags, res, rfl, hres, hbegin _ _ ?_ h⟩)
        exact hin
    · exact .inl (hbegin _ s hin h)
  | getClientAttrs clientID => exact .inl (hbegin _ s hin h)
  | clientRemoveCallback clientID => exact .inl (hbegin _ s hin h)
  | fetchDirtyBlocks invalidate => exact .inl (hbegin _ s hin h)

theorem Interferes.wf (h : Interferes s s') (hw : s.clientList.Wf s.fresh) : s'.clientList.Wf s'.fresh :=
  h.fresh ▸ h.list.wf hw

theorem Interferes.msgs_nil (h : Interferes s s') (hm : s.msgList = []) : s'.msgList = [] :=
  List.sublist_nil.mp (hm ▸ h.msgs)

namespace Server

/-- The client list has no doubles, and `FS_CONSIST_IN_PROGRESS` has one owner. -/
structure Base (s : Server) : Prop where
  wf : s.info.clientList.Wf s.info.fresh
  unique : ∀ p q, (s.pc p).active = true → (s.pc q).active = true → p = q
  flag : ∀ p, (s.pc p).active = true → s.info.flags.inProgress = true
  owner : s.info.flags.inProgress = true → ∃ p, (s.pc p).active = true
  quiet : s.info.flags.inProgress = false → s.info.msgList = []

theorem base_init : Base {} :=
  ⟨ClientList.Wf.nil 0, by simp [Pc.active], by simp [Pc.active], by simp, by simp⟩

variable {s : Server}

theorem Base.stop (h : Base s) (e : Panic) : Base (s.stop e) :=
  ⟨h.wf, h.unique, h.flag, h.owner, h.quiet⟩

variable {p : Pid}

/-- Nobody else owns the flag when `p` does, or when it is clear. -/
theorem Base.others_inactive (h : Base s) (hp : (s.pc p).active = true ∨ s.info.flags.inProgress = false) {q : Pid} (hq : q ≠ p) :
    (s.pc q).active = false := by
  by_contra hne
  have hact : (s.pc q).active = true := by simpa using hne
  rcases hp with hp | hp
  · exact hq (h.unique q p hact hp)
  · exact absurd ((h.flag q hact).symm.trans hp) (by simp)

variable {i : Info} {c : Pc}

theorem Base.put_owned (h : Base s) (hp : (s.pc p).active = true ∨ s.info.flags.inProgress = false) (ho : Owned i c) : Base (s.put p i c) := by
  have hact : ∀ q, ((s.put p i c).pc q).active = true → q = p ∧ c.active = true := by
    intro q hq
    by_cases hqp : q = p
    · subst hqp
      exact ⟨rfl, by simpa using hq⟩
    · rw [put_pc_of_ne s hqp, h.others_inactive hp hqp] at hq
      exact absurd hq (by simp)
  refine ⟨ho.wf, ?_, ?_, ?_, ho.quiet⟩
  · intro q r hq hr
    rw [(hact q hq).1, (hact r hr).1]
  · intro q hq
    exact ho.active ▸ (hact q hq).2
  · intro hin
    exact ⟨p, by rw [put_pc_self]; exact ho.active.trans hin⟩

theorem Base.put_same (h : Base s) (hc : c.active = (s.pc p).active) (hi : Interferes s.info i) : Base (s.put p i c) := by
  have hact : ∀ q, ((s.put p i c).pc q).active = (s.pc q).active := by
    intro q
    by_cases hqp : q = p
    · subst hqp
      simpa using hc
    · rw [put_pc_of_ne s hqp]
  refine ⟨hi.wf h.wf, ?_, ?_, ?_, ?_⟩
  · intro q r hq hr
    exact h.unique q r (hact q ▸ hq) (hact r ▸ hr)
  · intro q hq
    exact hi.inProgress.trans (h.flag q (hact q ▸ hq))
  · intro hin
    obtain ⟨q, hq⟩ := h.owner (hi.inProgress ▸ hin)
    exact ⟨q, (hact q).trans hq⟩
  · intro hin
    exact hi.msgs_nil (h.quiet (hi.inProgress ▸ hin))

theorem Base.withInfo (h : Base s) (hw : i.clientList.Wf i.fresh)
    (hf : i.flags.inProgress = s.info.flags.inProgress) (hm : List.Sublist i.msgList s.info.msgList)
    (n : Nat) : Base { s with info := i, timeouts := n } :=
  ⟨hw, h.unique, fun p hp => hf.trans (h.flag p hp), fun hin => h.owner (hf ▸ hin),
    fun hin => List.sublist_nil.mp (h.quiet (hf ▸ hin) ▸ hm)⟩

theorem free_inactive (h : c.free = true) : c.active = false := by
  cases c <;> simp_all [Pc.free, Pc.active]

variable {env : Env} {l : Label} {t : Server}

/-- A stretch has nothing to do with the flag, or its process owns the flag or finds it clear. -/
theorem Base.runs_cases (h : Base s)
    (hr : Runs env s p l (.ok (i, c))) :
    (c.active = false ∧ (s.pc p).active = false ∧ Interferes s.info i) ∨
      (((s.pc p).active = true ∨ s.info.flags.inProgress = false) ∧ Owned i c) := by
  generalize hst : (Except.ok (i, c) : Stretch) = st at hr
  cases hr with
  | enter r hfree =>
    rcases enter_cases h.wf hst.symm with ⟨hc, hi⟩ | ⟨a, s', hclear, hi, hs⟩
    · exact .inl ⟨hc.inactive, free_inactive hfree, hi⟩
    · refine .inr ⟨.inr hclear, owned_start (hi.wf h.wf) ?_ ?_ hs⟩
      · exact hi.inProgress.trans hclear
      · exact hi.msgs_nil (h.quiet hclear)
  | wake a hpc hclear =>
    exact .inr ⟨.inr hclear, owned_start h.wf hclear (h.quiet hclear) hst.symm⟩
  | relock f hpc =>
    have hact : (s.pc p).active = true := by rw [hpc]; rfl
    exact .inr ⟨.inl hact, owned_resume h.wf (h.flag p hact) hst.symm⟩
  | repliesIn f hpc hempty =>
    have hact : (s.pc p).active = true := by rw [hpc]; rfl
    exact .inr ⟨.inl hact, owned_endWait h.wf hempty hst.symm⟩

theorem Base.runs (h : Base s) (hr : Runs env s p l (.ok (i, c))) : Base (s.put p i c) := by
  rcases h.runs_cases hr with ⟨hc, hp, hi⟩ | ⟨hp, ho⟩
  · exact h.put_same (hc.trans hp.symm) hi
  · exact h.put_owned hp ho

theorem wf_reopenClient {clientID : HostId} {use : UseCounts} {haveDirtyBlocks : Bool} {s : Info}
    (hw : s.clientList.Wf s.fresh) (h : Fsconsist.reopenClient clientID use haveDirtyBlocks s = .ok i) :
    i.clientList.Wf i.fresh ∧ i.flags = s.flags ∧ i.msgList = s.msgList := by
  unfold Fsconsist.reopenClient at h
  simp only at h
  split at h
  · split at h
    · simp at h
    · cases h
      exact ⟨hw.updateClient clientID (fun _ => ⟨rfl, rfl⟩), rfl, rfl⟩
  · next hnone =>
    cases h
    refine ⟨?_, rfl, rfl⟩
    have hins := hw.findOrInsert clientID
    rw [ClientList.findOrInsert, hnone] at hins
    exact hins.updateClient clientID (fun _ => ⟨rfl, rfl⟩)

theorem Base.acts (h : Base s) (ha : Acts env s l i) (n : Nat) : Base { s with info := i, timeouts := n } := by
  by_cases hl : l.reopens = true
  · cases ha with
    | reopenClient clientID use haveDirtyBlocks i hi =>
      obtain ⟨hw, hf, hm⟩ := wf_reopenClient h.wf hi
      exact h.withInfo hw (by rw [hf]) (by rw [hm]) n
    | _ => simp [Label.reopens] at hl
  · have hi := ha.interferes h.wf (by simpa using hl)
    exact h.withInfo (hi.wf h.wf) hi.inProgress hi.msgs n

/-- One step keeps the list free of doubles and the flag with its one owner. -/
theorem Base.step (h : Base s) (hs : step env s l = some t) : Base t := by
  obtain ⟨-, ⟨e, -, rfl⟩ | ⟨p, i, c, hr, rfl⟩ | ⟨p, f, msg, status, i, -, hpc, hr, rfl⟩ | ⟨i, n, ha, rfl⟩⟩ :=
    step_cases hs
  · exact h.stop e
  · exact h.runs hr
  · refine h.put_same ?_ (hr.interferes h.wf)
    rw [hpc]
    rfl
  · exact h.acts ha n

theorem base_of_run {C : Server → Label → Prop} (hb : Base s) (h : Run (step env) C s t) : Base t :=
  h.invariant (I := Base) (fun _ _ _ hi _ hs => hi.step hs) hb

end Server

end SpriteKernel.Fsconsist
