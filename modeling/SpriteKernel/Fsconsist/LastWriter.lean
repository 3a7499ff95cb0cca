import SpriteKernel.Fsconsist.Sharing

/- Dirty blocks a client has not given back. `lastWriter` names who may have them, and an open by somebody else is to
   get them first. A last writer that only reads is told to invalidate what it has, and stays the last writer. -/
namespace SpriteKernel.Fsconsist

open List

open SpriteKernel KeyedList Transition

/-- `writer`'s entry: it caches the file, and has it open for writing where the file cannot be cached. -/
def Standing (caching : Prop) (writer : HostId) (d : ClientInfo) : Prop :=
  d.clientID = writer ∧ d.cached = true ∧ (¬ caching → 0 < d.use.write)

/-- A traversal with `ptrs` ahead that has not reached `writer`. -/
structure Approaching (caching : Prop) (writer : HostId) (log : List Command) (ptrs : List Nat) (s : Info) :
    Prop where
  entry : ∃ d ∈ s.clientList, Standing caching writer d ∧ d.ptr ∈ ptrs
  lastWriter : s.lastWriter = some writer ∨ (¬ caching ∧ s.lastWriter = none)
  log : log <:+ s.log

/-- `p` has told `writer` to write back. -/
def CalledBack (p : Pid) (writer : HostId) (log : List Command) (s : Info) : Prop :=
  ∃ new, s.log = new ++ log ∧ ∃ c ∈ new, c.pid = p ∧ c.clientID = writer ∧ c.flags.writeBackBlocks = true

/-- Nobody but the client that opens the file may have dirty blocks. -/
def Settled (clientID : HostId) (s : Info) : Prop :=
  s.lastWriter = none ∨ s.lastWriter = some clientID

/-- An open that has called `writer` back: it will have the dirty blocks, or fail. -/
structure Called (p : Pid) (clientID writer : HostId) (log : List Command) (s : Info) : Prop where
  called : CalledBack p writer log s
  debt : Settled clientID s ∨ s.flags.error = true ∨
    (s.lastWriter = some writer ∧ Owes CmdFlags.writeBackBlocks writer s.msgList)

/-- Where the process of the open is. -/
def Pc.writerOk (caching : Prop) (p : Pid) (clientID : HostId) (useFlags : UseFlags) (writer : HostId)
    (log : List Command) (s : Info) : Pc → Prop
  | .inRpc (.scanning a loc next) _ | .relock (.scanning a loc next) =>
    a = .fileConsistency clientID useFlags ∧ (loc.cacheable = true ↔ caching) ∧
      (Approaching caching writer log (ptrsFrom next s.clientList) s ∨ Called p clientID writer log s)
  | .waitReplies (.ending _ _) => Called p clientID writer log s
  | .returned _ _ status => CalledBack p writer log s ∧ (status = .success → Settled clientID s)
  | _ => False

/-! ## Facts about the call-back -/

variable {p : Pid} {clientID writer : HostId} {log : List Command} {s s' : Info}

theorem Called.of_same (h : Called p clientID writer log s) (hlog : s'.log = s.log)
    (hlw : s'.lastWriter = s.lastWriter ∨ Settled clientID s') (herr : s'.flags.error = s.flags.error)
    (hm : s'.msgList = s.msgList) : Called p clientID writer log s' := by
  obtain ⟨new, hnew, hc⟩ := h.called
  refine ⟨⟨new, hlog.trans hnew, hc⟩, ?_⟩
  rcases hlw with hlw | hset
  · rw [Settled, hlw, herr, hm]
    exact h.debt
  · exact .inl hset

theorem Called.finish (h : Called p clientID writer log s) (hm : s.msgList = []) : CalledBack p writer log (finishEnd s).2 ∧
      ((finishEnd s).1 = .success → Settled clientID (finishEnd s).2) := by
  refine ⟨h.called, fun hst => ?_⟩
  rcases h.debt with hset | herr | ⟨-, m, hfind, -⟩
  · exact hset
  · simp [finishEnd, herr] at hst
  · simp [hm] at hfind

variable {useFlags : UseFlags} {loc : Locals} {caching : Prop} {lastWriter : Option HostId} {cacheable : Bool}

theorem called_endConsistency {a : Scan} (h : Called p clientID writer log s) :
    (endConsistency a loc s).2.writerOk caching p clientID useFlags writer log (endConsistency a loc s).1 := by
  unfold endConsistency
  split
  · next he => exact h.finish (by simpa using he)
  · exact h.of_same rfl (.inl rfl) rfl rfl

theorem called_afterTraversal (h : Called p clientID writer log s) :
    (afterTraversal (.fileConsistency clientID useFlags) loc s).2.writerOk caching p clientID useFlags writer
      log (afterTraversal (.fileConsistency clientID useFlags) loc s).1 := by
  refine called_endConsistency (h.of_same rfl ?_ rfl rfl)
  simp only [updateList]
  split
  · exact .inr (.inr rfl)
  · exact .inl rfl

theorem startCommand_standing (useFlags : UseFlags) {d : ClientInfo} (hne : writer ≠ clientID)
    (hd : Standing caching writer d) (hc : cacheable = true ↔ caching)
    (hlw : lastWriter = some writer ∨ (¬ caching ∧ lastWriter = none)) :
    ∃ flags, startCommand clientID useFlags cacheable lastWriter d = some flags ∧
      flags.writeBackBlocks = true := by
  obtain ⟨rfl, hcached, hwrite⟩ := hd
  unfold startCommand
  rw [if_neg (by simpa using hne), if_neg (by simpa using hcached)]
  by_cases hcach : cacheable = true
  · have hlw : lastWriter = some d.clientID := hlw.resolve_right (fun h => h.1 (hc.mp hcach))
    rw [if_pos hcach, hlw, if_neg (by simp), if_neg (by simpa using hne)]
    exact ⟨_, rfl, rfl⟩
  · have hw := hwrite (fun h => hcach (hc.mpr h))
    rw [if_neg hcach, if_neg (by simp; omega), if_pos (by simpa using hw)]
    exact ⟨_, rfl, rfl⟩

variable {c : ClientInfo} {flags : CmdFlags}

theorem startCommand_cacheable (h : startCommand clientID useFlags true lastWriter c = some flags) :
    lastWriter = some c.clientID := by
  unfold startCommand at h
  split at h
  · simp at h
  · split at h
    · simp at h
    · rw [if_pos rfl] at h
      split at h
      · simp at h
      · next hlw => simpa using hlw

/-! ## The traversal -/

variable {q : Nat} {rest : List Nat}

theorem Approaching.commandSelf (h : Approaching caching writer log (q :: rest) s) (hw : s.clientList.Wf s.fresh)
    (hmem : c ∈ s.clientList) (hq : c.ptr = q) (hself : c.clientID ≠ writer) (hc : cacheable = true ↔ caching)
    (hcmd : startCommand clientID useFlags cacheable s.lastWriter c = some flags) :
    Approaching caching writer log rest
      (Fsconsist.commandSelf c flags (logCommand p c flags (unlockAndPin q rest.head? s))) := by
  obtain ⟨d, hd, hst, hp⟩ := h.entry
  have hne : d.ptr ≠ c.ptr := by
    intro hdc
    obtain rfl := eq_of_key_eq hw.ptrs hd hmem hdc
    exact hself hst.1
  obtain ⟨b, hd'⟩ := mem_unlockAndPin_of_mem q rest.head? hw hd
  refine ⟨⟨d.setLocked b, mem_selfList_of_ne (wf_unlockAndPin hw q _) hd' hne, hst, ?_⟩, ?_,
    h.log.trans (suffix_cons _ _)⟩
  · exact (mem_cons.mp hp).resolve_left (fun hdq => hne (hdq.trans hq.symm))
  · have hn : ¬ caching := by
      intro hcaching
      rw [hc.mpr hcaching] at hcmd
      have hlw := h.lastWriter.resolve_right (fun h => h.1 hcaching)
      exact hself (Option.some.inj (hlw.symm.trans (startCommand_cacheable hcmd))).symm
    have hlw : s.lastWriter = some writer ∨ s.lastWriter = none := h.lastWriter.imp id (fun h => h.2)
    simp only [Fsconsist.commandSelf, logCommand, unlockAndPin, selfLastWriter]
    split
    · exact .inr ⟨hn, rfl⟩
    · exact hlw.imp id (fun h => ⟨hn, h⟩)

variable {next : Option Nat} {env : Env} {i : Info}

theorem Called.commandSelf (h : Called p clientID writer log s) (c : ClientInfo) (flags : CmdFlags) :
    Called p clientID writer log
      (Fsconsist.commandSelf c flags (logCommand p c flags (unlockAndPin q next s))) := by
  obtain ⟨new, hnew, d, hd, hdc⟩ := h.called
  refine ⟨⟨_ :: new, by simp [Fsconsist.commandSelf, logCommand, unlockAndPin, hnew]; rfl, d,
    mem_cons_of_mem _ hd, hdc⟩, ?_⟩
  simp only [Settled, Fsconsist.commandSelf, logCommand, unlockAndPin, selfLastWriter]
  split
  · exact .inl (.inl rfl)
  · exact h.debt

theorem Called.commandPost (h : Called p clientID writer log s) (c : ClientInfo) (flags : CmdFlags) :
    Called p clientID writer log
      (Fsconsist.commandPost c flags (logCommand p c flags (unlockAndPin q next s))) := by
  obtain ⟨new, hnew, d, hd, hdc⟩ := h.called
  refine ⟨⟨_ :: new, by simp [Fsconsist.commandPost, logCommand, unlockAndPin, hnew]; rfl, d,
    mem_cons_of_mem _ hd, hdc⟩, ?_⟩
  exact h.debt.imp id (Or.imp id (fun ho => ⟨ho.1, owes_append _ ho.2⟩))

theorem Approaching.commandPost (h : Approaching caching writer log (q :: rest) s) (hj : Walking loc (q :: rest) s)
    (hmem : c ∈ s.clientList) (hq : c.ptr = q) (hne : writer ≠ clientID)
    (hc : loc.cacheable = true ↔ caching)
    (hcmd : startCommand clientID useFlags loc.cacheable s.lastWriter c = some flags) :
    Approaching caching writer log rest
        (Fsconsist.commandPost c flags (logCommand p c flags (unlockAndPin q rest.head? s))) ∨
      Called p clientID writer log
        (Fsconsist.commandPost c flags (logCommand p c flags (unlockAndPin q rest.head? s))) := by
  obtain ⟨d, hd, hst, hp⟩ := h.entry
  rcases mem_cons.mp hp with hdq | hp
  · obtain rfl := eq_of_key_eq hj.wf.ptrs hd hmem (hdq.trans hq.symm)
    obtain ⟨flags', hcmd', hwb⟩ := startCommand_standing useFlags hne hst hc h.lastWriter
    cases hcmd.symm.trans hcmd'
    obtain ⟨new, hnew⟩ := h.log
    refine .inr ⟨⟨_ :: new, by simp [Fsconsist.commandPost, logCommand, unlockAndPin, ← hnew]; rfl, _,
      mem_cons_self, rfl, hst.1, hwb⟩, ?_⟩
    rcases h.lastWriter with hlw | ⟨-, hlw⟩
    · refine .inr (.inr ⟨hlw, ?_⟩)
      have ho : Owes CmdFlags.writeBackBlocks d.clientID
          (s.msgList ++ [newMsg d flags (unlockAndPin q rest.head? s)]) :=
        owes_of_post (m := newMsg d flags (unlockAndPin q rest.head? s))
          (hj.quiet d hd (hdq ▸ mem_cons_self)) hwb
      exact hst.1 ▸ ho
    · exact .inl (.inl hlw)
  · obtain ⟨b, hd'⟩ := mem_unlockAndPin_of_mem q rest.head? hj.wf hd
    exact .inl ⟨⟨d.setLocked b, hd', hst, hp⟩, h.lastWriter, h.log.trans (suffix_cons _ _)⟩

theorem writerOk_traverse {ptrs : List Nat} {c : Pc}
    (hne : writer ≠ clientID) (hremote : writer ≠ env.rpc_SpriteID) (hj : Walking loc ptrs s)
    (hcach : loc.cacheable = true ↔ caching)
    (ho : Approaching caching writer log ptrs s ∨ Called p clientID writer log s)
    (h : traverse env p (.fileConsistency clientID useFlags) loc ptrs s = .ok (i, c)) :
    c.writerOk caching p clientID useFlags writer log i := by
  refine traverse_rule (fun loc ptrs s => Walking loc ptrs s ∧ (loc.cacheable = true ↔ caching) ∧
    (Approaching caching writer log ptrs s ∨ Called p clientID writer log s))
    (fun i c => c.writerOk caching p clientID useFlags writer log i) ?_ ?_ ?_ ?_ ⟨hj, hcach, ho⟩ h
  · intro loc q rest s c ⟨hj, hcach, ho⟩ hf hnone
    obtain ⟨hmem, hq⟩ := find_ptr hf
    refine ⟨hj.unlockAndPin hq, hcach, ?_⟩
    rcases ho with ha | hc
    · obtain ⟨d, hd, hst, hp⟩ := ha.entry
      refine .inl ?_
      rcases mem_cons.mp hp with hdq | hp
      · obtain rfl := eq_of_key_eq hj.wf.ptrs hd hmem (hdq.trans hq.symm)
        obtain ⟨flags, hsome, -⟩ := startCommand_standing useFlags hne hst hcach ha.lastWriter
        exact absurd (hsome.symm.trans hnone) (by simp)
      · obtain ⟨b, hd'⟩ := mem_unlockAndPin_of_mem q rest.head? hj.wf hd
        exact ⟨⟨d.setLocked b, hd', hst, hp⟩, ha.lastWriter, ha.log⟩
    · exact .inr (hc.of_same rfl (.inl rfl) rfl rfl)
  · intro loc q rest s c flags ⟨hj, hcach, ho⟩ hf hsome hid
    obtain ⟨hmem, hq⟩ := find_ptr hf
    refine ⟨hj.commandSelf p hq flags, hcach, ?_⟩
    rcases ho with ha | hc
    · exact .inl (ha.commandSelf hj.wf hmem hq (fun h => hremote (h.symm.trans hid)) hcach hsome)
    · exact .inr (hc.commandSelf c flags)
  · intro loc q rest s c flags ⟨hj, hcach, ho⟩ hf hsome hid _
    obtain ⟨hmem, hq⟩ := find_ptr hf
    have hpost := hj.commandPost p hmem hq flags
    refine ⟨rfl, hcach, ?_⟩
    rw [ptrsFrom_of_suffix hpost.wf.ptrs hpost.suffix]
    rcases ho with ha | hc
    · exact ha.commandPost hj hmem hq hne hcach hsome
    · exact .inr (hc.commandPost c flags)
  · intro loc s ⟨hj, hcach, ho⟩
    rcases ho with ha | hc
    · obtain ⟨d, -, -, hp⟩ := ha.entry
      simp at hp
    · exact called_afterTraversal hc

/-! ## What the others do during an open -/

/-- After the close of one stream with these flags the client still writes. -/
def LeavesWriting (writer : HostId) (flags : UseFlags) (l : ClientList) : Prop :=
  ∀ d ∈ l, d.clientID = writer →
    0 < (d.use - UseCounts.ofFlags flags).ref ∧ 0 < (d.use - UseCounts.ofFlags flags).write

/-- No client is killed or re-opens, and a call-back is delivered. -/
def Label.calm : Label → Bool
  | .kill _ | .ioClientKill _ | .consistTimeout | .reopenClient _ _ _ => false
  | .rpcReturn _ status => status == .success
  | _ => true

/-- The writer is not taken off before it is called back; where it is called back as it writes, it goes on writing. -/
def Label.keepsWriter (caching : Prop) (writer : HostId) (l : ClientList) : Label → Prop
  | .close clientID flags =>
    (caching → flags.lastDirtyBlock = false) ∧
      (¬ caching → clientID = writer → LeavesWriting writer flags l)
  | .call _ (.migrateConsistency src _ flags true) => ¬ caching → src = writer → LeavesWriting writer flags l
  | .call _ (.reopenConsistency clientID use swap cacheable) =>
    clientID = writer → reopenFlags use swap cacheable ≠ {}
  | _ => True

/-- An entry that will get its client called back is not lost. -/
def KeepsWriter (caching : Prop) (writer : HostId) (s s' : Info) : Prop :=
  ∀ d ∈ s.clientList, Standing caching writer d →
    ∃ d' ∈ s'.clientList, Standing caching writer d' ∧ d'.ptr = d.ptr

theorem KeepsWriter.of_list_eq (h : s'.clientList = s.clientList) : KeepsWriter caching writer s s' :=
  fun d hd hst => ⟨d, h ▸ hd, hst, rfl⟩

theorem Approaching.interferes (h : Approaching caching writer log (ptrsFrom next s.clientList) s)
    (ht : Suspended loc next s) (hw : s.clientList.Wf s.fresh) (hi : Interferes s s')
    (ht' : Suspended loc next s') (hk : KeepsWriter caching writer s s')
    (hlw : caching → s'.lastWriter = s.lastWriter) :
    Approaching caching writer log (ptrsFrom next s'.clientList) s' := by
  obtain ⟨d, hd, hst, hp⟩ := h.entry
  obtain ⟨d', hd', hst', hp'⟩ := hk d hd hst
  refine ⟨⟨d', hd', hst', ?_⟩, ?_, hi.log ▸ h.log⟩
  · cases next with
    | none => simp [ptrsFrom] at hp
    | some q =>
      rw [ptrsFrom_eq_rest (ht.mem_ptrs rfl)] at hp
      rw [ptrsFrom_eq_rest (ht'.mem_ptrs rfl), hp']
      exact Cursor.mem_rest_of_sublist hw.ptrs hi.list.ptrs (ht'.mem_ptrs rfl)
        (hp' ▸ mem_map_of_mem hd') hp
  · by_cases hcaching : caching
    · rw [hlw hcaching]
      exact h.lastWriter
    · have hold : s.lastWriter = some writer ∨ s.lastWriter = none := h.lastWriter.imp id (fun h => h.2)
      rcases hi.lastWriter with hlw | hlw
      · rw [hlw]
        exact hold.imp id (fun h => ⟨hcaching, h⟩)
      · exact .inr ⟨hcaching, hlw⟩

/-- A close keeps an entry that gets its client called back, if the client goes on writing where it has to. -/
theorem keepsWriter_ioClientClose {flags : UseFlags} {r : ClientList.CloseResult} (hw : s.clientList.Wf s.fresh)
    (hlw : caching → s.lastWriter = some writer)
    (hl : ¬ caching → clientID = writer → LeavesWriting writer flags s.clientList)
    (h : s.clientList.ioClientClose clientID flags (s.lastWriter == some clientID) = .ok r) {d : ClientInfo}
    (hd : d ∈ s.clientList) (hst : Standing caching writer d) :
    ∃ d' ∈ r.list, Standing caching writer d' ∧ d'.ptr = d.ptr := by
  rcases ioClientClose_spec h with ⟨-, rfl⟩ | ⟨c, hc, -, -, -, -, hlist⟩
  · exact ⟨d, hd, hst, rfl⟩
  · obtain ⟨hmem, hid⟩ := ClientList.mem_of_client hc
    by_cases hother : d.clientID = clientID
    · obtain rfl := eq_of_key_eq hw.ids hd hmem (hother.trans hid.symm)
      obtain ⟨hwriter, hcached, hwrite⟩ := hst
      rcases hlist with ⟨hgone, -⟩ | ⟨-, hlist⟩
      · simp only [Bool.and_eq_true, Bool.or_eq_true, Bool.not_eq_true', hcached, beq_iff_eq] at hgone
        by_cases hcaching : caching
        · simp [hlw hcaching, ← hother, hwriter] at hgone
        · have hleft := (hl hcaching (hid.symm.trans hwriter) d hd hwriter).1
          omega
      · rw [hlist]
        refine ⟨_, (mem_updateFirst_key hw.ids).mpr (.inr ⟨d, hd, hid, rfl⟩), ⟨hwriter, hcached, ?_⟩, rfl⟩
        exact fun hcaching => (hl hcaching (hid.symm.trans hwriter) d hd hwriter).2
    · refine ⟨d, ?_, hst, rfl⟩
      rcases hlist with ⟨-, hlist⟩ | ⟨-, hlist⟩
      · rw [hlist]
        exact (mem_eraseP_key hw.ids).mpr ⟨hd, hother⟩
      · rw [hlist]
        exact (mem_updateFirst_key hw.ids).mpr (.inl ⟨hd, hother⟩)

namespace Server

/-- During an action the routines that do not wait keep what will get the writer called back. -/
theorem Acts.keepsWriter {s : Server} {l : Label}
    (hw : s.info.clientList.Wf s.info.fresh) (hin : s.info.flags.inProgress = true) (hcalm : l.calm = true)
    (hl : l.keepsWriter caching writer s.info.clientList) (hlw : caching → s.info.lastWriter = some writer)
    (hq : ∀ m ∈ s.info.msgList, m.clientID ≠ writer) (h : Acts env s l i) :
    KeepsWriter caching writer s.info i ∧ (caching → i.lastWriter = s.info.lastWriter) := by
  cases h with
  | close clientID flags found wasCached i h =>
    unfold Fsconsist.close at h
    split at h
    · simp at h
    · next r hr =>
      split at h
      · simp only [Except.ok.injEq, Prod.mk.injEq] at h
        rw [← h.2.2]
        exact ⟨.of_list_eq rfl, fun _ => rfl⟩
      · simp only [Except.ok.injEq, Prod.mk.injEq] at h
        rw [← h.2.2]
        refine ⟨fun d hd hst => keepsWriter_ioClientClose hw hlw hl.2 hr hd hst, fun hcaching => ?_⟩
        simp [hl.1 hcaching]
  | numClients => exact ⟨.of_list_eq (by simp [Fsconsist.numClients, hin]), fun _ => by simp [Fsconsist.numClients, hin]⟩
  | deleteLastWriter clientID =>
    exact ⟨.of_list_eq (by simp [Fsconsist.deleteLastWriter, hin]),
      fun _ => by simp [Fsconsist.deleteLastWriter, hin]⟩
  | consistReply clientID success =>
    unfold processConsistReply
    cases hm : s.info.msgList.find? (fun m => m.clientID == clientID) with
    | none => exact ⟨.of_list_eq rfl, fun _ => rfl⟩
    | some msg =>
      have hid : msg.clientID = clientID := by simpa using List.find?_some hm
      have hne : clientID ≠ writer := hid ▸ hq msg (mem_of_find?_eq_some hm)
      simp only
      split
      · exact ⟨.of_list_eq rfl, fun _ => rfl⟩
      · refine ⟨fun d hd hst => ⟨d, mem_replyList_of_ne hw hd (hst.1 ▸ hne.symm), hst, rfl⟩, ?_⟩
        intro hcaching
        simp [replyLastWriter, hlw hcaching, hne.symm]
  | timeoutIntr => exact ⟨.of_list_eq rfl, fun _ => rfl⟩
  | _ => simp [Label.calm] at hcalm

theorem Acts.called {s : Server} {l : Label} (hin : s.info.flags.inProgress = true) (hcalm : l.calm = true)
    (h : Acts env s l i) (hc : Called p clientID writer log s.info) : Called p clientID writer log i := by
  cases h with
  | close k flags found wasCached i h =>
    unfold Fsconsist.close at h
    split at h
    · simp at h
    · split at h
      · simp only [Except.ok.injEq, Prod.mk.injEq] at h
        exact h.2.2 ▸ hc
      · simp only [Except.ok.injEq, Prod.mk.injEq] at h
        rw [← h.2.2]
        refine hc.of_same rfl ?_ rfl rfl
        split
        · exact .inr (.inl rfl)
        · exact .inl rfl
  | numClients =>
    simp only [Fsconsist.numClients, hin, if_true]
    exact hc
  | deleteLastWriter k =>
    simp only [Fsconsist.deleteLastWriter, hin, if_true]
    exact hc
  | consistReply k success =>
    unfold processConsistReply
    cases hm : s.info.msgList.find? (fun m => m.clientID == k) with
    | none => exact hc
    | some msg =>
      simp only
      split
      · exact ⟨hc.called, .inr (.inl rfl)⟩
      · refine ⟨hc.called, ?_⟩
        rcases hc.debt with hset | herr | ⟨hlw, ho⟩
        · refine .inl ?_
          simp only [Settled, replyLastWriter]
          split
          · exact .inl rfl
          · exact hset
        · exact .inr (.inl herr)
        · by_cases hk : k = writer
          · obtain ⟨m, hfind, hwb⟩ := ho
            rw [← hk, hm] at hfind
            cases hfind
            exact .inl (.inl (by simp [replyLastWriter, hwb, hlw, hk]))
          · refine .inr (.inr ⟨?_, owes_eraseP (Ne.symm hk) ho⟩)
            simp [replyLastWriter, hlw, Ne.symm hk]
  | timeoutIntr => exact hc.of_same rfl (.inl rfl) rfl rfl
  | _ => simp [Label.calm] at hcalm

end Server

/-- The traversal has the entry of `writer` ahead. -/
def Pc.approaching (writer : HostId) (s : Info) : Pc → Prop
  | .inRpc (.scanning _ _ next) _ | .relock (.scanning _ _ next) =>
    ∃ d ∈ s.clientList, d.clientID = writer ∧ d.ptr ∈ ptrsFrom next s.clientList
  | _ => False

theorem writerOk_interferes {c : Pc} {i i' : Info} (hact : c.active = true) (hw : i.clientList.Wf i.fresh)
    (hi : Interferes i i') (ht : c.traversalOk i) (ht' : c.traversalOk i')
    (hk : c.approaching writer i → (caching → i.lastWriter = some writer) →
      (∀ m ∈ i.msgList, m.clientID ≠ writer) →
      KeepsWriter caching writer i i' ∧ (caching → i'.lastWriter = i.lastWriter))
    (hc : Called p clientID writer log i → Called p clientID writer log i')
    (h : c.writerOk caching p clientID useFlags writer log i) :
    c.writerOk caching p clientID useFlags writer log i' := by
  have hscan : ∀ loc next, Suspended loc next i → Suspended loc next i' →
      ((∃ d ∈ i.clientList, d.clientID = writer ∧ d.ptr ∈ ptrsFrom next i.clientList) → c.approaching writer i) →
      Approaching caching writer log (ptrsFrom next i.clientList) i ∨ Called p clientID writer log i →
      Approaching caching writer log (ptrsFrom next i'.clientList) i' ∨ Called p clientID writer log i' := by
    intro loc next ht ht' happ ho
    rcases ho with ha | hcalled
    · obtain ⟨d, hd, hst, hp⟩ := ha.entry
      obtain ⟨hkeeps, hlw⟩ := hk (happ ⟨d, hd, hst.1, hp⟩)
        (fun hcaching => ha.lastWriter.resolve_right (fun h => h.1 hcaching))
        (hst.1 ▸ ht.quiet d hd hp)
      exact .inl (ha.interferes ht hw hi ht' hkeeps hlw)
    · exact .inr (hc hcalled)
  cases c with
  | idle => exact h
  | waitDone a => exact h
  | inRpc f msg =>
    cases f with
    | loop l => exact h
    | scanning a loc next => exact ⟨h.1, h.2.1, hscan loc next ht ht' id h.2.2⟩
  | relock f =>
    cases f with
    | loop l => exact h
    | scanning a loc next => exact ⟨h.1, h.2.1, hscan loc next ht ht' id h.2.2⟩
  | waitReplies f =>
    cases f with
    | loop l => exact h
    | ending a loc => exact hc h
  | returned a loc status => simp [Pc.active] at hact

/-! ## The open as a whole -/

namespace Server

/-- What may happen while process `p` is in its open and `writer` has not been called
back. -/
structure Orderly (caching : Prop) (p : Pid) (writer : HostId) (s : Server) (l : Label) : Prop where
  opening : (s.pc p).active = true
  spares : SparesPinned s l
  calm : l.calm = true
  keeps : (s.pc p).approaching writer s.info → l.keepsWriter caching writer s.info.clientList

/-- Process `p` is on its way through the open, or has just returned from it. -/
structure OpenOk (caching : Prop) (p : Pid) (clientID : HostId) (useFlags : UseFlags) (writer : HostId)
    (log : List Command) (s : Server) : Prop where
  base : Base s
  traversal : (s.pc p).traversalOk s.info
  ok : (s.pc p).writerOk caching p clientID useFlags writer log s.info

theorem OpenOk.step {s t : Server} {l : Label} (h : OpenOk caching p clientID useFlags writer log s)
    (hne : writer ≠ clientID) (hremote : writer ≠ env.rpc_SpriteID) (hc : Orderly caching p writer s l)
    (hs : Server.step env s l = some t) : OpenOk caching p clientID useFlags writer log t := by
  have hw := h.base.wf
  have hok := h.ok
  have hin := h.base.flag p hc.opening
  have htraversal := traversalOk_step h.base h.traversal hc.spares hs
  refine ⟨h.base.step hs, htraversal, ?_⟩
  obtain ⟨-, ⟨e, -, rfl⟩ | ⟨q, i, c, hr, rfl⟩ | ⟨q, f, msg, status, i, rfl, hpc, hr, rfl⟩ | ⟨i, n, ha, rfl⟩⟩ :=
    step_cases hs
  · exact hok
  · by_cases hq : q = p
    · subst hq
      rw [put_pc_self, put_info]
      have htr := h.traversal
      have hact := hc.opening
      generalize hst : (Except.ok (i, c) : Stretch) = st at hr
      cases hr with
      | enter r hfree => simp [free_inactive hfree] at hact
      | wake a hpc hclear => simp [hpc, Pc.active] at hact
      | relock f hpc =>
        rw [hpc] at hok htr
        cases f with
        | loop l => exact hok.elim
        | scanning a loc next =>
          obtain ⟨rfl, hcach, ho⟩ := hok
          exact writerOk_traverse hne hremote (Suspended.walking htr hw) hcach ho hst.symm
      | repliesIn f hpc hempty =>
        rw [hpc] at hok
        cases f with
        | loop l => exact hok.elim
        | ending a loc =>
          have hcalled : Called q clientID writer log s.info := hok
          obtain ⟨rfl, rfl⟩ := hst
          exact hcalled.finish hempty
    · rw [put_pc_of_ne s (Ne.symm hq), put_info] at htraversal ⊢
      -- another process can only queue up
      rcases h.base.runs_cases hr with ⟨-, hqa, hi⟩ | ⟨hown, -⟩
      · generalize hst : (Except.ok (i, c) : Stretch) = st at hr
        cases hr with
        | enter r hfree =>
          refine writerOk_interferes hc.opening hw hi h.traversal htraversal (fun happ hlw hquiet => ?_)
            (fun hcalled => ?_) hok <;> rcases enter_inProgress hin hst.symm with rfl |
              ⟨src, dst, flags, res, rfl, hres, rfl⟩ | ⟨k, use, swap, cacheable, rfl, hz, rfl⟩
          · exact ⟨.of_list_eq rfl, fun _ => rfl⟩
          · exact ⟨fun d hd hstand => keepsWriter_ioClientClose hw hlw (hc.keeps happ) hres hd hstand, fun _ => rfl⟩
          · refine ⟨fun d hd hstand => ⟨d, (mem_eraseP_key hw.ids).mpr ⟨hd, ?_⟩, hstand, rfl⟩, fun _ => rfl⟩
            exact fun hid => hc.keeps happ (hid.symm.trans hstand.1) hz
          · exact hcalled
          · exact hcalled.of_same rfl (.inl rfl) rfl rfl
          · exact hcalled.of_same rfl (.inl rfl) rfl rfl
        | wake a hpc hclear => simp [hclear] at hin
        | relock f hpc => simp [hpc, Pc.active] at hqa
        | repliesIn f hpc hempty => simp [hpc, Pc.active] at hqa
      · have := h.base.others_inactive hown (Ne.symm hq)
        rw [hc.opening] at this
        simp at this
  · obtain rfl : status = .success := by simpa [Label.calm] using hc.calm
    cases hr
    have hqp : q = p := h.base.unique q p (by rw [hpc]; rfl) hc.opening
    subst hqp
    rw [hpc] at hok
    rw [put_pc_self]
    cases f with
    | scanning a loc next => exact hok
    | loop l => exact hok
  · have hre : l.reopens = false := by
      have hcalm := hc.calm
      cases ha with
      | reopenClient => simp [Label.calm] at hcalm
      | _ => rfl
    exact writerOk_interferes hc.opening hw (ha.interferes hw hre) h.traversal htraversal
      (fun happ hlw hquiet => ha.keepsWriter hw hin hc.calm (hc.keeps happ) hlw hquiet)
      (ha.called hin hc.calm) hok

theorem openOk_of_begins {s t : Server} {l : Label} (hb : Base s) (hp : l.process? = some p)
    (hbegins : s.begins l = some (clientID, useFlags)) (hne : writer ≠ clientID)
    (hremote : writer ≠ env.rpc_SpriteID) (hlw : s.info.lastWriter = some writer)
    (hst : ∃ d ∈ s.info.clientList,
      Standing (Cacheable env clientID useFlags s.info.clientList) writer d)
    (hs : Server.step env s l = some t) (hok : t.panic = none) :
    OpenOk (Cacheable env clientID useFlags s.info.clientList) p clientID useFlags writer s.info.log t := by
  have hstart : ∀ i c, s.info.flags.inProgress = false →
      start env p (.scan (.fileConsistency clientID useFlags)) s.info = .ok (i, c) →
      c.traversalOk i ∧
        c.writerOk (Cacheable env clientID useFlags s.info.clientList) p clientID useFlags writer
          s.info.log i := by
    intro i c hclear h
    refine ⟨traversalOk_start hb.wf (hb.quiet hclear) h, ?_⟩
    refine writerOk_traverse hne hremote (walking_start hb.wf (hb.quiet hclear)) cacheableFor_iff
      (.inl ?_) h
    obtain ⟨d, hd, hstand⟩ := hst
    exact ⟨⟨d, hd, hstand, mem_map_of_mem hd⟩, .inl hlw, suffix_refl _⟩
  have hbase := hb.step hs
  obtain ⟨-, ⟨e, -, rfl⟩ | ⟨q, i, c, hr, rfl⟩ | ⟨q, f, msg, status, i, rfl, hpc, hr, rfl⟩ | ⟨i, n, ha, rfl⟩⟩ :=
    step_cases hs
  · simp [stop] at hok
  · have hfin : q = p ∧ s.info.flags.inProgress = false ∧
        start env p (.scan (.fileConsistency clientID useFlags)) s.info = .ok (i, c) := by
      generalize hres : (Except.ok (i, c) : Stretch) = st at hr
      cases hr with
      | enter r hfree =>
        obtain rfl : q = p := by simpa [Label.process?] using hp
        cases r with
        | fileConsistency k flags =>
          simp only [begins] at hbegins
          split at hbegins
          · simp at hbegins
          · next hclear =>
            obtain ⟨rfl, rfl⟩ := hbegins
            exact ⟨rfl, by simpa using hclear, by simp [Request.enter, beginOrWait, hclear]⟩
        | _ => simp [begins] at hbegins
      | wake a hpc hclear =>
        obtain rfl : q = p := by simpa [Label.process?] using hp
        simp only [begins, hpc] at hbegins
        split at hbegins
        · next hwait =>
          obtain ⟨rfl, rfl⟩ := hbegins
          obtain rfl := Pc.waitDone.inj hwait
          exact ⟨rfl, hclear, rfl⟩
        · simp at hbegins
      | relock f hpc => simp [begins] at hbegins
      | repliesIn f hpc hempty => simp [begins] at hbegins
    obtain ⟨rfl, hclear, h⟩ := hfin
    obtain ⟨htr, hwr⟩ := hstart i c hclear h
    exact ⟨hbase, by simpa using htr, by simpa using hwr⟩
  · simp [begins] at hbegins
  · cases ha <;> simp [Label.process?] at hp

end Server

/-- From any reachable state, an open of a file whose last writer is another client calls the data back. -/
theorem dirty_data_of_open (env : Env) {s s₁ t : Server} {l : Label} {p : Pid} {clientID writer : HostId}
    {useFlags : UseFlags} (hreach : Run (Server.step env) (fun _ _ => True) {} s)
    (hp : l.process? = some p) (hbegins : s.begins l = some (clientID, useFlags))
    (hlw : s.info.lastWriter = some writer) (hne : writer ≠ clientID) (hremote : writer ≠ env.rpc_SpriteID)
    (hcached : ∃ d ∈ s.info.clientList, d.clientID = writer ∧ d.cached = true ∧
      (¬ Cacheable env clientID useFlags s.info.clientList → 0 < d.use.write))
    (hstep : Server.step env s l = some s₁)
    (hrun : Run (Server.step env)
      (Server.Orderly (Cacheable env clientID useFlags s.info.clientList) p writer) s₁ t)
    (hok : t.panic = none) :
    ((∃ a loc, t.pc p = .waitReplies (.ending a loc)) ∨ (∃ a loc status, t.pc p = .returned a loc status) →
      ∃ new, t.info.log = new ++ s.info.log ∧
        ∃ c ∈ new, c.pid = p ∧ c.clientID = writer ∧ c.flags.writeBackBlocks = true) ∧
    ∀ a loc, t.pc p = .returned a loc .success →
      t.info.lastWriter = none ∨ t.info.lastWriter = some clientID := by
  have hok₁ : s₁.panic = none := by
    rcases Relation.ReflTransGen.cases_head hrun with rfl | ⟨u, ⟨k, -, hk⟩, -⟩
    · exact hok
    · exact (Server.step_cases hk).1
  have hopen := hrun.invariant (fun _ _ _ hi hc hs => hi.step hne hremote hc hs)
    (Server.openOk_of_begins (Server.base_of_run Server.base_init hreach) hp hbegins hne hremote hlw hcached
      hstep hok₁)
  have hwr := hopen.ok
  refine ⟨fun hpast => ?_, fun a loc hpc => ?_⟩
  · rcases hpast with ⟨a, loc, hpc⟩ | ⟨a, loc, status, hpc⟩
    · rw [hpc] at hwr
      exact Called.called hwr
    · rw [hpc] at hwr
      exact hwr.1
  · rw [hpc] at hwr
    exact hwr.2 rfl

/-- Host 3 opens for writing a file of host 2, and host 2 does as it is told. -/
def openByOther : Label := .call 1 (.fileConsistency 3 { write := true })

def answersOfOther : List Label :=
  [.rpcReturn 1 .success, .relock 1, .consistReply 2 true, .repliesIn 1]

theorem writer_gives_back :
    ∃ s t, exec (Server.step fileServer) {} [.call 0 (.fileConsistency 2 { write := true })] = some s ∧
      s.info.lastWriter = some 2 ∧
      exec (Server.step fileServer) s (openByOther :: answersOfOther) = some t ∧
      (∃ a loc, t.pc 1 = .returned a loc .success) ∧
      (∃ new, t.info.log = new ++ s.info.log ∧
        ∃ c ∈ new, c.pid = 1 ∧ c.clientID = 2 ∧ c.flags.writeBackBlocks = true) ∧
      (t.info.lastWriter = none ∨ t.info.lastWriter = some 3) := by
  have hrun : ∃ s, exec (Server.step fileServer) {} [.call 0 (.fileConsistency 2 { write := true })] = some s ∧
      s.info.lastWriter = some 2 ∧ s.begins openByOther = some (3, { write := true }) ∧
      (∃ d ∈ s.info.clientList, d.clientID = 2 ∧ d.cached = true ∧ 0 < d.use.write) ∧
      ∃ s₁, Server.step fileServer s openByOther = some s₁ ∧
        ∃ t, exec (guarded (fun s l => (s.pc 1).active = true ∧ l ∈ answersOfOther) (Server.step fileServer)) s₁
            answersOfOther = some t ∧
          exec (Server.step fileServer) s (openByOther :: answersOfOther) = some t ∧
          t.panic = none ∧ ∃ a loc, t.pc 1 = .returned a loc .success :=
    ⟨_, rfl, rfl, rfl, by decide, _, rfl, _, rfl, rfl, rfl, _, _, rfl⟩
  obtain ⟨s, hs, hlw, hbegins, ⟨d, hd, hid, hcached, hwrite⟩, s₁, hs₁, t, ht, hexec, hok, a, loc, hpc⟩ := hrun
  have hreach : Run (Server.step fileServer) (fun _ _ => True) {} s :=
    run_of_exec (A := fun _ => True) _ {} s (fun _ _ => trivial) hs
  have horderly := (run_of_guarded answersOfOther s₁ t ht).mono (D := Server.Orderly
    (Cacheable fileServer 3 { write := true } s.info.clientList) 1 2) (by
      intro s l ⟨hact, hl⟩
      refine ⟨hact, ?_, ?_, fun _ => ?_⟩
      · intro p k use swap cacheable hcall
        simp [hcall, answersOfOther] at hl
      · simp only [answersOfOther, mem_cons, not_mem_nil, or_false] at hl
        rcases hl with rfl | rfl | rfl | rfl <;> rfl
      · simp only [answersOfOther, mem_cons, not_mem_nil, or_false] at hl
        rcases hl with rfl | rfl | rfl | rfl <;> trivial)
  have h := dirty_data_of_open fileServer hreach rfl hbegins hlw (by decide) (by decide)
    ⟨d, hd, hid, hcached, fun _ => hwrite⟩ hs₁ horderly hok
  exact ⟨s, t, hs, hlw, hexec, ⟨a, loc, hpc⟩, h.1 (.inr ⟨a, loc, _, hpc⟩), h.2 a loc hpc⟩

def writerReads : List Label :=
  [.call 0 (.fileConsistency 2 { write := true }), .close 2 { write := true },
    .call 0 (.fileConsistency 2 { read := true })]

/-- Then host 3 opens, and host 2 was not told to write back, and is still the last writer. -/
theorem writer_keeps_dirty_data :
    ∃ s, exec (Server.step fileServer) {} writerReads = some s ∧ s.info.lastWriter = some 2 ∧
      ∃ t, exec (Server.step fileServer) s (openByOther :: answersOfOther) = some t ∧
        (∃ a loc, t.pc 1 = .returned a loc .success) ∧ t.info.lastWriter = some 2 ∧
        t.info.log = [⟨1, 2, { invalidateBlocks := true }, true⟩] ++ s.info.log :=
  ⟨_, rfl, rfl, _, rfl, ⟨_, _, rfl⟩, rfl, rfl⟩

end SpriteKernel.Fsconsist
