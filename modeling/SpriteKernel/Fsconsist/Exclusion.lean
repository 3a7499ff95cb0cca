import SpriteKernel.Fsconsist.Owner

/- Mutual exclusion of consistency actions: no `ClientCommand` runs without the flag. The loops that clear it inside
   `EndConsistency` and look at more entries never call back again: after the first call-back `lastWriter` is the
   client just called, or nobody (`LoopInv`). A re-open could install a new one meanwhile, so it is left out here. -/
namespace SpriteKernel.Fsconsist

open List

open SpriteKernel KeyedList Transition

/-- The entries a loop still has to look at are not the last writer's. -/
def LoopInv (l : Loop) (s : Info) : Prop :=
  match l with
  | .removing _ cur => s.lastWriter = none ∨ s.lastWriter = some cur
  | .fetching _ next =>
    ∀ d ∈ s.clientList, d.ptr ∈ ptrsFrom next s.clientList → s.lastWriter ≠ some d.clientID

variable {s : Info} {l : Loop}

theorem Interferes.loopInv {s' : Info} (hi : Interferes s s') (h : LoopInv l s) : LoopInv l s' := by
  cases l with
  | removing clientID cur =>
    rcases hi.lastWriter with hw | hw
    · simpa [LoopInv, hw] using h
    · exact .inl hw
  | fetching invalidate next =>
    intro d hd hptr
    obtain ⟨c, hc, hdc⟩ := hi.list.exists_lowered hd
    have hne := h c hc (hdc.ptr ▸ mem_ptrsFrom_of_below hi.list hptr)
    rcases hi.lastWriter with hw | hw
    · rw [hw, hdc.clientID]
      exact hne
    · rw [hw]
      simp

/-- The loop a process is in the middle of. -/
def Pc.loop? : Pc → Option Loop
  | .inRpc (.loop l) _ | .relock (.loop l) | .waitReplies (.loop l) => some l
  | _ => none

/-- Every command so far was given with the flag set. -/
def Logged (s : Info) : Prop := ∀ e ∈ s.log, e.inProgress = true

variable {p : Pid}

theorem logged_logCommand {c : ClientInfo} {flags : CmdFlags} (h : Logged s)
    (hin : s.flags.inProgress = true) : Logged (logCommand p c flags s) := by
  intro e he
  rcases mem_cons.mp he with rfl | he
  · exact hin
  · exact h e he

/-- A stretch that gave no command without the flag, and leaves a loop in order. -/
def Guarded : Stretch → Prop
  | .error e => e ≠ .consistFlagNotSet
  | .ok (i, c) => Logged i ∧ ∀ l, c.loop? = some l → LoopInv l i

variable {env : Env} {ptrs : List Nat}

theorem safe_traverse {a : Scan} {loc : Locals} (hin : s.flags.inProgress = true) (hlog : Logged s) : Guarded (traverse env p a loc ptrs s) := by
  cases h : traverse env p a loc ptrs s with
  | error e => exact traverse_error hin h
  | ok r =>
    refine traverse_rule (fun _ _ s => s.flags.inProgress = true ∧ Logged s)
      (fun i c => Guarded (.ok (i, c))) ?_ ?_ ?_ ?_ ⟨hin, hlog⟩ h
    · intro loc q rest s c hj _ _
      exact hj
    · intro loc q rest s c flags hj _ _ _
      exact ⟨hj.1, logged_logCommand (s := unlockAndPin q rest.head? s) hj.2 hj.1⟩
    · intro loc q rest s c flags hj _ _ _ _
      exact ⟨logged_logCommand (s := unlockAndPin q rest.head? s) hj.2 hj.1, by simp [Pc.loop?]⟩
    · intro loc s hj
      have hend : ∀ a loc s, Logged s → Guarded (.ok (endConsistency a loc s)) := by
        intro a loc s hlog
        unfold endConsistency
        split <;> exact ⟨hlog, by simp [Pc.loop?]⟩
      cases a with
      | fileConsistency clientID useFlags => exact hend _ _ _ hj.2
      | reopenConsistency clientID useFlags => exact hend _ _ _ hj.2
      | migrateConsistency dst useFlags =>
        simp only [afterTraversal]
        split <;> exact hend _ _ _ hj.2
      | getClientAttrs clientID => exact hend _ _ _ hj.2

theorem safe_removeLoop {clientID : HostId} {l : ClientList} (hl : s.clientList = l) (hw : s.clientList.Wf s.fresh) (hlog : Logged s)
    (hcmd : s.flags.inProgress = true ∨ ∀ c ∈ l, s.lastWriter ≠ some c.clientID) :
    Guarded (removeLoop env p clientID l s) := by
  induction l generalizing s with
  | nil => exact ⟨hlog, by simp [Pc.loop?]⟩
  | cons d l ih =>
    have hremove : ∀ l', l' = d :: l → ClientList.removeClient d.clientID l' = l := by
      simp [ClientList.removeClient]
    have hids : ∀ c ∈ l, d.clientID ≠ c.clientID := by
      intro c hc hcd
      have hn := hw.ids
      rw [hl, map_cons, nodup_cons] at hn
      exact hn.1 (mem_map.mpr ⟨c, hc, hcd.symm⟩)
    unfold removeLoop
    split
    · next hturn =>
      simp only [Bool.and_eq_true, beq_iff_eq] at hturn
      obtain ⟨⟨-, hlw⟩, -⟩ := hturn
      have hin : s.flags.inProgress = true := hcmd.resolve_right (fun h => h d mem_cons_self hlw)
      split
      · next hx => exact clientCommand_error hx hin
      · next s' msg hx =>
        obtain ⟨-, -, -, rfl⟩ := clientCommand_post hx
        refine ⟨logged_logCommand hlog hin, fun l hl => ?_⟩
        cases hl
        exact .inr hlw
      · next s' hx =>
        obtain ⟨-, rfl⟩ := clientCommand_self hx
        have hlist : (commandSelf d { deleteFile := true } (logCommand p d { deleteFile := true } s)).clientList =
            d :: l := by
          simp [commandSelf, logCommand, selfList, selfLastWriter, hlw, hl]
        have hlog' : Logged (logCommand p d { deleteFile := true } s) := logged_logCommand hlog hin
        split
        · refine ih ?_ ?_ hlog' (.inr ?_)
          · exact hremove _ hlist
          · exact (wf_commandSelf hw p d { deleteFile := true }).removeClient d.clientID
          · intro c hc hlwc
            have : s.lastWriter = some c.clientID := hlwc
            exact hids c hc (Option.some.inj (hlw.symm.trans this))
        · refine ⟨hlog', fun l hl => ?_⟩
          cases hl
          exact .inr hlw
    · refine ih ?_ ?_ hlog ?_
      · exact hremove _ hl
      · exact hw.removeClient d.clientID
      · exact hcmd.imp id (fun h c hc => h c (mem_cons_of_mem d hc))

section
variable (hw : s.clientList.Wf s.fresh)
include hw

section
variable (hlog : Logged s)
include hlog

theorem safe_fetchLoop {invalidate : Bool}
    (hcmd : s.flags.inProgress = true ∧ ptrs <:+ s.clientList.map ClientInfo.ptr ∨
      ∀ c ∈ s.clientList, c.ptr ∈ ptrs → s.lastWriter ≠ some c.clientID) :
    Guarded (fetchLoop env p invalidate ptrs s) := by
  induction ptrs generalizing s with
  | nil => exact ⟨hlog, by simp [Pc.loop?]⟩
  | cons q rest ih =>
    unfold fetchLoop
    split
    · simp [Guarded]
    · next d hd =>
      obtain ⟨hmem, hq⟩ := find_ptr hd
      have hw' := wf_unlockAndPin hw q rest.head?
      have hmap := map_ptr_unlockAndPin q rest.head? s
      simp only
      split
      · simp [Guarded]
      · next hlw =>
        have hlw : s.lastWriter = some d.clientID := by simpa [unlockAndPin] using hlw
        obtain ⟨hin, hsuf⟩ := hcmd.resolve_right (fun h => h d hmem (hq ▸ mem_cons_self) hlw)
        have hrest : rest <:+ (unlockAndPin q rest.head? s).clientList.map ClientInfo.ptr :=
          hmap ▸ (suffix_cons q rest).trans hsuf
        split
        · exact ih hw' hlog (.inl ⟨hin, hrest⟩)
        · split
          · next hx => exact clientCommand_error hx hin
          · next s' msg hx =>
            obtain ⟨-, -, -, rfl⟩ := clientCommand_post hx
            refine ⟨logged_logCommand (s := unlockAndPin q rest.head? s) hlog hin, fun l hl => ?_⟩
            cases hl
            -- the last writer's entry is the one at `q`, which is behind
            intro c hc hptr hlwc
            have hahead : c.ptr ∈ rest := by
              rw [← ptrsFrom_of_suffix hw'.ptrs hrest]
              exact hptr
            obtain ⟨c₀, hc₀, b, rfl⟩ := mem_unlockAndPin hc
            have hid : c₀.clientID = d.clientID :=
              Option.some.inj ((show s.lastWriter = some c₀.clientID from hlwc).symm.trans hlw)
            obtain rfl := eq_of_key_eq hw.ids hc₀ hmem hid
            exact Cursor.nodup_of_suffix hw.ptrs hsuf (hq ▸ hahead)
          · next s' hx =>
            obtain ⟨-, rfl⟩ := clientCommand_self hx
            have hlog' : Logged (logCommand p d
                { writeBackBlocks := true, invalidateBlocks := invalidate }
                (unlockAndPin q rest.head? s)) := logged_logCommand hlog hin
            split
            · refine ih (wf_commandSelf hw' p d _) hlog' (.inr ?_)
              simp [finishEnd, commandSelf, selfLastWriter]
            · refine ⟨hlog', fun l hl => ?_⟩
              cases hl
              intro c _ _
              simp [commandSelf, selfLastWriter]

theorem safe_continueLoop (hl : LoopInv l s) : Guarded (continueLoop env p l s) := by
  cases l with
  | removing clientID cur =>
    refine safe_removeLoop rfl (hw.removeClient cur) hlog (.inr ?_)
    intro c hc hlwc
    rcases hl with hl | hl
    · rw [hl] at hlwc
      simp at hlwc
    · exact ((mem_eraseP_key hw.ids).mp hc).2 (Option.some.inj (hlwc.symm.trans hl))
  | fetching invalidate next => exact safe_fetchLoop hw hlog (.inr hl)

theorem safe_start {a : Action} : Guarded (start env p a s) := by
  unfold start
  cases a with
  | scan a =>
    refine safe_traverse ?_ ?_
    · rfl
    · exact hlog
  | clientRemoveCallback clientID =>
    refine safe_removeLoop rfl ?_ ?_ (.inl ?_)
    · exact hw
    · exact hlog
    · rfl
  | fetchDirtyBlocks invalidate =>
    simp only
    split
    · exact ⟨hlog, by simp [Pc.loop?]⟩
    · refine safe_fetchLoop ?_ ?_ (.inl ⟨?_, ?_⟩)
      · exact hw
      · exact hlog
      · rfl
      · exact suffix_refl _

theorem safe_enter {r : Request} : Guarded (r.enter env p s) := by
  have hbegin : ∀ a s, s.clientList.Wf s.fresh → Logged s → Guarded (beginOrWait env p a s) := by
    intro a s hw hlog
    unfold beginOrWait
    split
    · exact ⟨hlog, by simp [Pc.loop?]⟩
    · exact safe_start hw hlog
  cases r with
  | fileConsistency clientID useFlags => exact hbegin _ s hw hlog
  | reopenConsistency clientID use swap cacheable =>
    simp only [Request.enter, reopenConsistency]
    split
    · exact ⟨hlog, by simp [Pc.loop?]⟩
    · exact hbegin _ s hw hlog
  | migrateConsistency src dst useFlags closeSrc =>
    simp only [Request.enter, migrateConsistency]
    split
    · split
      · next e he =>
        have : e = .badUseCounts := by
          unfold ClientList.ioClientClose at he
          grind
        simp [Guarded, this]
      · next r hr =>
        refine hbegin _ _ ?_ ?_
        · exact (below_ioClientClose hw hr).wf hw
        · exact hlog
    · exact hbegin _ s hw hlog
  | getClientAttrs clientID => exact hbegin _ s hw hlog
  | clientRemoveCallback clientID => exact hbegin _ s hw hlog
  | fetchDirtyBlocks invalidate => exact hbegin _ s hw hlog

theorem safe_endWait {f : EndFrame}
    (hl : ∀ l, (Pc.waitReplies f).loop? = some l → LoopInv l s) :
    Guarded (endWait env p f s) := by
  cases f with
  | ending a loc => exact ⟨hlog, by simp [Pc.loop?]⟩
  | loop l =>
    refine safe_continueLoop ?_ ?_ ?_
    · exact hw
    · exact hlog
    · have := hl l rfl
      cases l <;> exact this

end

theorem safe_resume {f : CallFrame}
    (hin : s.flags.inProgress = true) (hlog : Logged s)
    (hl : ∀ l, (Pc.relock f).loop? = some l → LoopInv l s) : Guarded (resume env p f s) := by
  cases f with
  | scanning a loc next => exact safe_traverse hin hlog
  | loop l =>
    have hinv := hl l rfl
    simp only [resume]
    split
    · refine safe_continueLoop ?_ ?_ ?_
      · exact hw
      · exact hlog
      · cases l <;> exact hinv
    · refine ⟨hlog, fun l' hl' => ?_⟩
      cases hl'
      cases l <;> exact hinv

end

namespace Server

/-- No command without the flag so far, and none to come. -/
structure Commanded (s : Server) : Prop where
  logged : Logged s.info
  loops : ∀ p l, (s.pc p).loop? = some l → LoopInv l s.info
  panic : s.panic ≠ some .consistFlagNotSet

theorem commanded_init : Commanded {} := ⟨by simp [Logged], by simp [Pc.loop?], by simp⟩

theorem loop_active {c : Pc} (h : c.loop? = some l) : c.active = true := by
  unfold Pc.loop? at h
  split at h <;> simp_all [Pc.active]

variable {env : Env} {s : Server} {l : Label} {t : Server}

theorem safe_runs {st : Stretch} (hb : Base s) (hc : Commanded s) (h : Runs env s p l st) : Guarded st := by
  cases h with
  | enter r hfree => exact safe_enter hb.wf hc.logged
  | wake a hpc hclear => exact safe_start hb.wf hc.logged
  | relock f hpc =>
    exact safe_resume hb.wf (hb.flag p (by rw [hpc]; rfl)) hc.logged
      (fun l hl => hc.loops p l (by rw [hpc]; exact hl))
  | repliesIn f hpc hempty =>
    exact safe_endWait hb.wf hc.logged (fun l hl => hc.loops p l (by rw [hpc]; exact hl))

theorem Commanded.others {p q : Pid} {i : Info} {c : Pc} {k : Loop}
    (hb : Base s) (hc : Commanded s) (hr : Runs env s p l (.ok (i, c))) (hq : q ≠ p)
    (hk : (s.pc q).loop? = some k) : LoopInv k i := by
  rcases hb.runs_cases hr with ⟨-, -, hi⟩ | ⟨hp, -⟩
  · exact hi.loopInv (hc.loops q k hk)
  · have := hb.others_inactive hp hq
    rw [loop_active hk] at this
    simp at this

theorem Commanded.step (hb : Base s) (hc : Commanded s)
    (hl : l.reopens = false) (hs : step env s l = some t) : Commanded t := by
  obtain ⟨hp, ⟨e, hstop, rfl⟩ | ⟨p, i, c, hr, rfl⟩ | ⟨p, f, msg, status, i, -, hpc, hr, rfl⟩ |
    ⟨i, n, ha, rfl⟩⟩ := step_cases hs
  · refine ⟨hc.logged, hc.loops, ?_⟩
    have hne : e ≠ .consistFlagNotSet := by
      rcases hstop with ⟨p, hr⟩ | rfl | rfl
      · exact safe_runs hb hc hr
      · simp
      · simp
    simpa [stop] using hne
  · obtain ⟨hlog, hloop⟩ := safe_runs hb hc hr
    refine ⟨hlog, fun q k hk => ?_, by simp [hp]⟩
    by_cases hq : q = p
    · subst hq
      exact hloop k (by simpa using hk)
    · rw [put_pc_of_ne s hq] at hk
      exact hc.others hb hr hq hk
  · have hi := hr.interferes hb.wf
    refine ⟨fun e he => hc.logged e (hi.log ▸ he), fun q k hk => hi.loopInv ?_, by simp [hp]⟩
    by_cases hq : q = p
    · subst hq
      refine hc.loops q k ?_
      rw [hpc]
      cases f with
      | scanning a loc next => simp [Pc.loop?] at hk
      | loop k' => simpa [Pc.loop?] using hk
    · rw [put_pc_of_ne s hq] at hk
      exact hc.loops q k hk
  · have hi := ha.interferes hb.wf hl
    exact ⟨fun e he => hc.logged e (hi.log ▸ he), fun q k hk => hi.loopInv (hc.loops q k hk), by simp [hp]⟩

theorem commanded_of_run (h : Run (Server.step env) (fun _ l => l.reopens = false) {} s) : Base s ∧ Commanded s :=
  h.invariant (I := fun s => Base s ∧ Commanded s)
    (fun _ _ _ hi hl hs => ⟨hi.1.step hs, hi.2.step hi.1 hl hs⟩) ⟨base_init, commanded_init⟩

/-! ## Mutual exclusion -/

theorem Base.owner_keeps {q : Pid} (hb : Base s)
    (hl : l.reopens = false) (hs : Server.step env s l = some t) (hq : (s.pc q).active = true)
    (hne : l.process? ≠ some q) : t.pc q = s.pc q ∧ t.info.flags.inProgress = true := by
  have hin := hb.flag q hq
  obtain ⟨-, ⟨e, -, rfl⟩ | ⟨p, i, c, hr, rfl⟩ | ⟨p, f, msg, status, i, rfl, -, hr, rfl⟩ | ⟨i, n, ha, rfl⟩⟩ :=
    step_cases hs
  · exact ⟨rfl, hin⟩
  · have hqp : q ≠ p := fun h => hne (h ▸ hr.process)
    refine ⟨put_pc_of_ne s hqp i c, ?_⟩
    rcases hb.runs_cases hr with ⟨-, -, hi⟩ | ⟨hp, -⟩
    · exact hi.inProgress.trans hin
    · rw [hb.others_inactive hp hqp] at hq
      simp at hq
  · have hqp : q ≠ p := fun h => hne (h ▸ rfl)
    exact ⟨put_pc_of_ne s hqp i _, (hr.interferes hb.wf).inProgress.trans hin⟩
  · exact ⟨rfl, (ha.interferes hb.wf hl).inProgress.trans hin⟩

end Server

/-- Over any interleaving at most one process is in a consistency action: one while the flag is set, else none. -/
theorem one_action_at_a_time (env : Env) {s : Server}
    (h : Run (Server.step env) (fun _ l => l.reopens = false) {} s) :
    (∀ p q, (s.pc p).active = true → (s.pc q).active = true → p = q) ∧
      ((∃ p, (s.pc p).active = true) ↔ s.info.flags.inProgress = true) ∧
      s.panic ≠ some .consistFlagNotSet ∧
      (∀ e ∈ s.info.log, e.inProgress = true) ∧
      ∀ l t q, l.reopens = false → Server.step env s l = some t → (s.pc q).active = true →
        l.process? ≠ some q → t.pc q = s.pc q ∧ t.info.flags.inProgress = true := by
  obtain ⟨hb, hc⟩ := Server.commanded_of_run h
  refine ⟨hb.unique, ⟨fun ⟨p, hp⟩ => hb.flag p hp, hb.owner⟩, hc.panic, hc.logged, ?_⟩
  intro l t q hl hs hq hne
  exact hb.owner_keeps hl hs hq hne

/-- Host 2 opens for writing, 3 for reading: host 2 is called back while a removal of the file waits. -/
def contendedOpen : List Label :=
  [.call 0 (.fileConsistency 2 { write := true }), .call 1 (.fileConsistency 3 { read := true }),
    .call 2 (.clientRemoveCallback 3)]

theorem contended_open_exclusive :
    ∃ s, Run (Server.step fileServer) (fun _ l => l.reopens = false) {} s ∧ (s.pc 1).active = true ∧
      s.pc 2 = .waitDone (.clientRemoveCallback 3) ∧ s.panic ≠ some .consistFlagNotSet := by
  have hrun : ∃ s, exec (Server.step fileServer) {} contendedOpen = some s ∧ (s.pc 1).active = true ∧
      s.pc 2 = .waitDone (.clientRemoveCallback 3) := ⟨_, rfl, by decide, by decide⟩
  obtain ⟨s, he, h₁, h₂⟩ := hrun
  have h := run_of_exec (A := fun l => l.reopens = false) contendedOpen {} s (by decide) he
  exact ⟨s, h, h₁, h₂, (one_action_at_a_time fileServer h).2.2.1⟩

/-- **A client has one entry**, whatever opens, closes, replies, removals and timeouts come in whatever order; no two
    entries have one address, and no message waits outside a consistency action. -/
theorem client_list_of_run (env : Env) {C : Server → Label → Prop} {s : Server} (h : Run (Server.step env) C {} s) :
    (s.info.clientList.map ClientInfo.clientID).Nodup ∧ (s.info.clientList.map ClientInfo.ptr).Nodup ∧
      (∀ c ∈ s.info.clientList, c.ptr < s.info.fresh) ∧ (s.info.flags.inProgress = false → s.info.msgList = []) := by
  obtain ⟨hwf, -, -, -, hquiet⟩ := Server.base_of_run Server.base_init h
  exact ⟨hwf.ids, hwf.ptrs, hwf.old, hquiet⟩

theorem client_list_of_contended : ∃ s, exec (Server.step fileServer) {} contendedOpen = some s ∧
    (s.info.clientList.map ClientInfo.clientID).Nodup := by
  obtain ⟨s, he⟩ : ∃ s, exec (Server.step fileServer) {} contendedOpen = some s := ⟨_, rfl⟩
  exact ⟨s, he, (client_list_of_run fileServer (run_of_exec (A := fun _ => True) contendedOpen {} s (by decide) he)).1⟩

end SpriteKernel.Fsconsist
