import SpriteKernel.Fsconsist.Owner
import Mathlib.Data.Fintype.Defs

/- The last writer is on the client list. Whoever holds dirty blocks has an entry, so the next traversal finds it,
   and a killed client is forgotten as the last writer too, but for what `Label.sparesWriter` leaves out. -/
namespace SpriteKernel.Fsconsist

open List

open SpriteKernel KeyedList Transition

def Tracked (env : Env) (s : Info) : Prop :=
  ∀ w, s.lastWriter = some w → w ≠ env.rpc_SpriteID → w ∈ s.clientList.map ClientInfo.clientID

variable {env : Env} {s : Info}

theorem Tracked.forget (h : s.lastWriter = none) : Tracked env s := by
  intro w hw
  simp [h] at hw

theorem Tracked.of_keeps {s' : Info} (h : Tracked env s)
    (hlw : s'.lastWriter = s.lastWriter ∨ s'.lastWriter = none)
    (hk : ∀ w, s'.lastWriter = some w → w ≠ env.rpc_SpriteID → w ∈ s.clientList.map ClientInfo.clientID →
      w ∈ s'.clientList.map ClientInfo.clientID) : Tracked env s' := by
  intro w hw hne
  rcases hlw with hlw | hlw
  · exact hk w hw hne (h w (hlw ▸ hw) hne)
  · simp [hlw] at hw

/-! ## Clients that stay on the list -/

variable {k : HostId}

theorem ids_updateClient {f : ClientInfo → ClientInfo} (hf : ClientList.KeepsKeys f)
    (l : ClientList) : (l.updateClient k f).map ClientInfo.clientID = l.map ClientInfo.clientID :=
  map_updateFirst (fun c => (hf c).1) l

variable {w : HostId} {l : ClientList} {fresh : Nat}

theorem mem_ids_removeClient (hw : l.Wf fresh) (hne : w ≠ k)
    (h : w ∈ l.map ClientInfo.clientID) : w ∈ (l.removeClient k).map ClientInfo.clientID := by
  obtain ⟨d, hd, rfl⟩ := mem_map.mp h
  exact mem_map_of_mem ((mem_eraseP_key hw.ids).mpr ⟨hd, hne⟩)

theorem mem_ids_ioClientKill (hw : l.Wf fresh) (hne : w ≠ k)
    (h : w ∈ l.map ClientInfo.clientID) : w ∈ (l.ioClientKill k).2.map ClientInfo.clientID := by
  unfold ClientList.ioClientKill
  split
  · exact h
  · split
    · rw [ids_updateClient (ClientList.keepsKeys_setUse 0)]
      exact h
    · exact mem_ids_removeClient hw hne h

theorem mem_ids_unlockAndPin {q : Nat} {next : Option Nat} (hw : s.clientList.Wf s.fresh)
    (h : w ∈ s.clientList.map ClientInfo.clientID) :
    w ∈ (unlockAndPin q next s).clientList.map ClientInfo.clientID := by
  obtain ⟨d, hd, rfl⟩ := mem_map.mp h
  obtain ⟨b, hd'⟩ := mem_unlockAndPin_of_mem q next hw hd
  exact mem_map.mpr ⟨d.setLocked b, hd', rfl⟩

variable {clientID : HostId} {a : Scan} {useFlags : UseFlags} {cacheable : Bool} {loc : Locals}

theorem mem_ids_updateList (h : w = clientID ∨ w ∈ s.clientList.map ClientInfo.clientID) :
    w ∈ (updateList clientID useFlags cacheable s).clientList.map ClientInfo.clientID := by
  simp only [updateList]
  rw [ids_updateClient (ClientList.keepsKeys_setOpenTimeStamp _), ClientList.ioClientOpen,
    ids_updateClient (ClientList.keepsKeys_open useFlags cacheable), ClientList.findOrInsert]
  cases hc : s.clientList.client clientID with
  | some c =>
    obtain ⟨hmem, hid⟩ := ClientList.mem_of_client hc
    rcases h with rfl | h
    · exact mem_map.mpr ⟨c, hmem, hid⟩
    · exact h
  | none =>
    rcases h with rfl | h
    · exact mem_cons_self
    · exact mem_cons_of_mem _ h

/-! ## The traversals -/

/-- The traversal of an open, or of `Fsconsist_GetClientAttrs`. -/
def Scan.opens : Scan → Bool
  | .fileConsistency _ _ | .getClientAttrs _ => true
  | _ => false

/-- The process is in one of these, if in any routine. -/
def Pc.opens : Pc → Bool
  | .idle | .returned _ _ _ => true
  | .waitDone (.scan a) => a.opens
  | .inRpc (.scanning a _ _) _ | .relock (.scanning a _ _) | .waitReplies (.ending a _) => a.opens
  | _ => false

theorem tracked_endConsistency (h : Tracked env s) (ha : a.opens = true) :
    Tracked env (endConsistency a loc s).1 ∧ (endConsistency a loc s).2.opens = true := by
  unfold endConsistency
  split
  · exact ⟨h, rfl⟩
  · exact ⟨h, ha⟩

theorem tracked_updateList (h : Tracked env s) : Tracked env (updateList clientID useFlags cacheable s) := by
  intro w hlw hne
  refine mem_ids_updateList ?_
  simp only [updateList] at hlw
  split at hlw
  · exact .inl (Option.some.inj hlw).symm
  · exact .inr (h w hlw hne)

theorem tracked_traverse {p : Pid} {ptrs : List Nat} {i : Info}
    {c : Pc} (hw : s.clientList.Wf s.fresh) (ht : Tracked env s) (ha : a.opens = true)
    (h : traverse env p a loc ptrs s = .ok (i, c)) : Tracked env i ∧ c.opens = true := by
  refine traverse_rule (fun _ _ s => s.clientList.Wf s.fresh ∧ Tracked env s)
    (fun i c => Tracked env i ∧ c.opens = true) ?_ ?_ ?_ ?_ ⟨hw, ht⟩ h
  · intro loc q rest s c ⟨hw, ht⟩ _ _
    exact ⟨wf_unlockAndPin hw q _, ht.of_keeps (.inl rfl) (fun w _ _ => mem_ids_unlockAndPin hw)⟩
  · intro loc q rest s c flags ⟨hw, ht⟩ hf _ hself
    have hw' := wf_unlockAndPin hw q rest.head?
    refine ⟨wf_commandSelf hw' p c flags, ht.of_keeps ?_ (fun w _ hne hmem => ?_)⟩
    · simp only [commandSelf, selfLastWriter]
      split
      · exact .inr rfl
      · exact .inl rfl
    · obtain ⟨hcmem, hq⟩ := find_ptr hf
      obtain ⟨d, hd, rfl⟩ := mem_map.mp hmem
      obtain ⟨b, hd'⟩ := mem_unlockAndPin_of_mem q rest.head? hw hd
      have hptr : d.ptr ≠ c.ptr := by
        intro hdc
        obtain rfl := eq_of_key_eq hw.ptrs hd hcmem hdc
        exact hne hself
      exact mem_map.mpr ⟨d.setLocked b, mem_selfList_of_ne hw' hd' hptr, rfl⟩
  · intro loc q rest s c flags ⟨hw, ht⟩ _ _ _ _
    exact ⟨ht.of_keeps (.inl rfl) (fun w _ _ => mem_ids_unlockAndPin hw), ha⟩
  · intro loc s ⟨hw, ht⟩
    cases a with
    | fileConsistency clientID useFlags => exact tracked_endConsistency (tracked_updateList ht) rfl
    | getClientAttrs clientID => exact tracked_endConsistency ht rfl
    | _ => simp [Scan.opens] at ha

/-! ## The routines that do not wait -/

/-- An open, a close, a reply, a kill, or a step of the routines these are about. -/
def Label.opensOrKills : Label → Bool
  | .call _ (.fileConsistency _ _) | .call _ (.getClientAttrs _) => true
  | .call _ _ | .reopenClient _ _ _ => false
  | _ => true

/-- The last writer is not taken off alone: no `Fsconsist_IOClientKill` of it, and no close of its last stream where
    it is not caching, unless its entry is pinned or it says that the last dirty block is written. -/
def Label.sparesWriter (env : Env) (i : Info) : Label → Prop
  | .ioClientKill clientID => i.lastWriter ≠ some clientID
  | .close clientID flags =>
    i.lastWriter = some clientID → clientID ≠ env.rpc_SpriteID → flags.lastDirtyBlock = false →
      ∀ d ∈ i.clientList, d.clientID = clientID → (d.use - UseCounts.ofFlags flags).ref = 0 →
        d.cached = true ∨ d.locked = true
  | _ => True

instance (env : Env) (i : Info) (l : Label) : Decidable (l.sparesWriter env i) := by
  cases l <;> unfold Label.sparesWriter <;> infer_instance

theorem tracked_close {flags : UseFlags} {found wasCached : Bool} {i : Info}
    (hw : s.clientList.Wf s.fresh) (ht : Tracked env s)
    (hl : Label.sparesWriter env s (.close clientID flags))
    (h : close clientID flags s = .ok (found, wasCached, i)) : Tracked env i := by
  unfold close at h
  split at h
  · simp at h
  · next r hr =>
    split at h
    · simp only [Except.ok.injEq, Prod.mk.injEq] at h
      exact h.2.2 ▸ ht
    · simp only [Except.ok.injEq, Prod.mk.injEq] at h
      rw [← h.2.2]
      by_cases hdirty : (s.lastWriter.isSome && flags.lastDirtyBlock) = true
      · exact Tracked.forget (by simp only [hdirty, if_true])
      · have hsome : ∀ w, s.lastWriter = some w → flags.lastDirtyBlock = false := by
          intro w hsw
          simpa [hsw] using hdirty
        refine ht.of_keeps ?_ (fun w hlw hne hmem => ?_)
        · exact .inl (by simp only [hdirty, if_false, Bool.false_eq_true])
        · have hlw : s.lastWriter = some w := by simpa only [hdirty, if_false, Bool.false_eq_true] using hlw
          rcases ioClientClose_spec hr with ⟨-, rfl⟩ | ⟨c, hc, -, -, -, -, hlist⟩
          · exact hmem
          · rcases hlist with ⟨hgone, hlist⟩ | ⟨-, hlist⟩
            · rw [hlist]
              refine mem_ids_removeClient hw (fun hwc => ?_) hmem
              -- the entry that goes is that of a last writer who does not cache
              subst hwc
              obtain ⟨hcmem, hid⟩ := ClientList.mem_of_client hc
              simp only [hlw, beq_self_eq_true, Bool.not_true, Bool.false_or, Bool.and_eq_true,
                Bool.not_eq_true', beq_iff_eq] at hgone
              rcases hl hlw hne (hsome _ hlw) c hcmem hid hgone.1.2 with hcached | hlocked
              · simp [hcached] at hgone
              · simp [hlocked] at hgone
            · rw [hlist, ids_updateClient (ClientList.keepsKeys_setUse _)]
              exact hmem

theorem tracked_timeoutLoop (msgs : List ConsistMsgInfo) (hw : s.clientList.Wf s.fresh) (ht : Tracked env s) : Tracked env (timeoutLoop msgs s) := by
  induction msgs generalizing s with
  | nil => exact ht
  | cons m msgs ih =>
    refine ih (hw.ioClientKill m.clientID) ?_
    by_cases hm : s.lastWriter = some m.clientID
    · exact Tracked.forget (by simp [hm])
    · refine ht.of_keeps (.inl (by simp [hm])) (fun w hlw _ => mem_ids_ioClientKill hw ?_)
      rintro rfl
      simp [hm] at hlw

theorem tracked_kill (hw : s.clientList.Wf s.fresh) (ht : Tracked env s) : Tracked env (kill clientID s).2 := by
  by_cases hm : s.lastWriter = some clientID
  · exact Tracked.forget (by simp [kill, hm])
  · refine ht.of_keeps (.inl (by simp [kill, hm])) (fun w hlw _ => mem_ids_ioClientKill hw ?_)
    rintro rfl
    simp [kill, hm] at hlw

theorem tracked_processConsistReply {success : Bool} (hw : s.clientList.Wf s.fresh) (ht : Tracked env s) :
    Tracked env (processConsistReply clientID success s) := by
  unfold processConsistReply
  split
  · exact ht
  · next msg _ =>
    split
    · exact ht
    · refine ht.of_keeps ?_ (fun w hlw _ hmem => ?_)
      · simp only [replyLastWriter]
        split
        · exact .inr rfl
        · exact .inl rfl
      · have hlw : replyLastWriter clientID msg.flags s.lastWriter = some w := hlw
        simp only [replyList, hlw]
        split
        · exact hmem
        · split
          · next hgone =>
            refine mem_ids_removeClient hw ?_ hmem
            rintro rfl
            simp at hgone
          · split
            · rw [ids_updateClient (ClientList.keepsKeys_setCached false)]
              exact hmem
            · exact hmem

namespace Server

variable {env : Env} {s : Server} {l : Label} {i : Info}

theorem Acts.tracked (hw : s.info.clientList.Wf s.info.fresh)
    (ht : Tracked env s.info) (hr : l.opensOrKills = true) (hl : l.sparesWriter env s.info)
    (h : Acts env s l i) : Tracked env i := by
  cases h with
  | close clientID flags found wasCached i h => exact tracked_close hw ht hl h
  | numClients =>
    unfold Fsconsist.numClients
    split
    · exact ht
    · refine ht.of_keeps (.inl rfl) (fun w hlw hne hmem => ?_)
      obtain ⟨d, hd, rfl⟩ := mem_map.mp hmem
      refine mem_map_of_mem (mem_filter.mpr ⟨hd, ?_⟩)
      have hlw : s.info.lastWriter = some d.clientID := hlw
      simp [inUse, hlw, hne]
  | deleteLastWriter clientID =>
    unfold Fsconsist.deleteLastWriter
    split
    · exact ht
    · split
      · exact ht
      · split
        · exact Tracked.forget rfl
        · exact ht
  | kill clientID => exact tracked_kill hw ht
  | ioClientKill clientID =>
    refine ht.of_keeps (.inl rfl) (fun w hlw _ => mem_ids_ioClientKill hw ?_)
    rintro rfl
    exact hl hlw
  | consistReply clientID success => exact tracked_processConsistReply hw ht
  | timeoutIntr => exact ht
  | consistTimeout => exact tracked_timeoutLoop _ hw ht
  | reopenClient => simp [Label.opensOrKills] at hr

theorem Returns.tracked {msg : ConsistMsgInfo} {status : RpcStatus} (hw : s.info.clientList.Wf s.info.fresh) (ht : Tracked env s.info) (h : Returns s msg status i) :
    Tracked env i := by
  cases h with
  | success => exact ht
  | down => exact tracked_kill hw ht
  | other => exact ht

/-! ## Runs -/

/-- The steps of opens, closes, replies and kills that keep hold of the last writer. -/
def TracksWriter (env : Env) (s : Server) (l : Label) : Prop :=
  l.opensOrKills = true ∧ l.sparesWriter env s.info

instance (env : Env) (s : Server) (l : Label) : Decidable (TracksWriter env s l) :=
  inferInstanceAs (Decidable (_ ∧ _))

variable {p : Pid} {c : Pc}

theorem tracked_start {s : Info} (hw : s.clientList.Wf s.fresh)
    (ht : Tracked env s) (ha : a.opens = true) (h : start env p (.scan a) s = .ok (i, c)) :
    Tracked env i ∧ c.opens = true := by
  refine tracked_traverse ?_ ?_ ha h
  · exact hw
  · exact ht

theorem tracked_beginOrWait {s : Info} (hw : s.clientList.Wf s.fresh) (ht : Tracked env s) (ha : a.opens = true)
    (h : beginOrWait env p (.scan a) s = .ok (i, c)) : Tracked env i ∧ c.opens = true := by
  unfold beginOrWait at h
  split at h
  · obtain ⟨rfl, rfl⟩ := h
    exact ⟨ht, ha⟩
  · exact tracked_start hw ht ha h

theorem tracked_runs (hb : Base s)
    (ht : Tracked env s.info) (hp : (s.pc p).opens = true) (hl : l.opensOrKills = true)
    (hr : Runs env s p l (.ok (i, c))) : Tracked env i ∧ c.opens = true := by
  generalize hst : (Except.ok (i, c) : Stretch) = st at hr
  cases hr with
  | enter r hfree =>
    cases r with
    | fileConsistency clientID useFlags => exact tracked_beginOrWait hb.wf ht rfl hst.symm
    | getClientAttrs clientID => exact tracked_beginOrWait hb.wf ht rfl hst.symm
    | _ => simp [Label.opensOrKills] at hl
  | wake a hpc hclear =>
    rw [hpc] at hp
    cases a with
    | scan a => exact tracked_start hb.wf ht hp hst.symm
    | _ => simp [Pc.opens] at hp
  | relock f hpc =>
    rw [hpc] at hp
    cases f with
    | scanning a loc next => exact tracked_traverse hb.wf ht hp hst.symm
    | loop l => simp [Pc.opens] at hp
  | repliesIn f hpc hempty =>
    rw [hpc] at hp
    cases f with
    | ending a loc =>
      obtain ⟨rfl, rfl⟩ := hst
      exact ⟨ht, rfl⟩
    | loop l => simp [Pc.opens] at hp

/-- The last writer has its entry, and every process is in a traversal or none. -/
structure WriterTracked (env : Env) (s : Server) : Prop where
  base : Base s
  tracked : Tracked env s.info
  opens : ∀ p, (s.pc p).opens = true

theorem WriterTracked.step {t : Server} (h : WriterTracked env s)
    (hl : TracksWriter env s l) (hs : Server.step env s l = some t) : WriterTracked env t := by
  have hb := h.base.step hs
  have hput : ∀ p i c, c.opens = true → ∀ q, ((s.put p i c).pc q).opens = true := by
    intro p i c hc q
    by_cases hq : q = p
    · subst hq
      simpa using hc
    · rw [put_pc_of_ne s hq]
      exact h.opens q
  obtain ⟨-, ⟨e, -, rfl⟩ | ⟨p, i, c, hr, rfl⟩ | ⟨p, f, msg, status, i, rfl, hpc, hr, rfl⟩ | ⟨i, n, ha, rfl⟩⟩ :=
    step_cases hs
  · exact ⟨hb, h.tracked, h.opens⟩
  · obtain ⟨ht, hc⟩ := tracked_runs h.base h.tracked (h.opens p) hl.1 hr
    exact ⟨hb, ht, hput p i c hc⟩
  · have hp := h.opens p
    rw [hpc] at hp
    exact ⟨hb, hr.tracked h.base.wf h.tracked, hput p i _ (by cases f <;> exact hp)⟩
  · exact ⟨hb, ha.tracked h.base.wf h.tracked hl.1 hl.2, h.opens⟩

theorem writerTracked_of_run (h : Run (Server.step env) (TracksWriter env) {} s) : WriterTracked env s :=
  h.invariant (I := WriterTracked env) (fun _ _ _ hi hc hs => hi.step hc hs)
    ⟨base_init, Tracked.forget rfl, fun _ => rfl⟩

end Server

/-- Over any run that keeps hold of the last writer, a remote last writer is on the client list. -/
theorem lastWriter_tracked (env : Env) {s : Server}
    (h : Run (Server.step env) (Server.TracksWriter env) {} s) :
    (∀ w, s.info.lastWriter = some w → w ≠ env.rpc_SpriteID → ∃ d ∈ s.info.clientList, d.clientID = w) ∧
      ∀ l t clientID, l = .kill clientID ∨ l = .ioClientKill clientID → Server.TracksWriter env s l →
        Server.step env s l = some t → t.info.lastWriter ≠ some clientID := by
  refine ⟨fun w hlw hne => ?_, fun l t clientID hl hc hs => ?_⟩
  · exact mem_map.mp ((Server.writerTracked_of_run h).tracked w hlw hne)
  · rcases hl with rfl | rfl
    · simp only [Server.step, Option.ite_none_left_eq_some, Option.some.injEq] at hs
      rw [← hs.2]
      by_cases hm : s.info.lastWriter = some clientID <;> simp [kill, hm]
    · simp only [Server.step, Option.ite_none_left_eq_some, Option.some.injEq] at hs
      rw [← hs.2]
      exact hc.2

/-- Host 2 writes the file, and closes it with its last dirty block written; host 3
opens it for writing and is killed. -/
def writerKilled : List Label :=
  [.call 0 (.fileConsistency 2 { write := true }), .close 2 { write := true, lastDirtyBlock := true },
    .call 0 (.fileConsistency 3 { write := true })]

theorem written_file_tracked :
    ∃ s, Run (Server.step fileServer) (Server.TracksWriter fileServer) {} s ∧
      s.info.lastWriter = some 3 ∧ (∃ d ∈ s.info.clientList, d.clientID = 3) ∧
      ∃ t, Server.step fileServer s (.kill 3) = some t ∧ t.info.lastWriter ≠ some 3 := by
  have hrun : ∃ s, exec (guarded (Server.TracksWriter fileServer) (Server.step fileServer)) {} writerKilled =
      some s ∧ s.info.lastWriter = some 3 ∧ ∃ t, Server.step fileServer s (.kill 3) = some t :=
    ⟨_, rfl, rfl, _, rfl⟩
  obtain ⟨s, he, hlw, t, ht⟩ := hrun
  have h := run_of_guarded writerKilled {} s he
  obtain ⟨htracked, hkill⟩ := lastWriter_tracked fileServer h
  exact ⟨s, h, hlw, htracked 3 hlw (by decide), t, ht, hkill (.kill 3) t 3 (.inl rfl) ⟨rfl, trivial⟩ ht⟩

/-- A kill, and a close of a file that was mapped, leave a last writer that does not use the file. -/
theorem untracked_writer :
    (∃ s, exec (Server.step fileServer) {} [.call 0 (.fileConsistency 2 { write := true }), .ioClientKill 2] =
        some s ∧ s.info.flags.inProgress = false ∧ s.info.lastWriter = some 2 ∧ s.info.clientList = []) ∧
      ∃ s, exec (Server.step fileServer) {}
          [.call 0 (.fileConsistency 2 { write := true }), .call 0 (.fileConsistency 2 { read := true, map := true }),
            .close 2 { read := true, map := true }, .close 2 { write := true }] = some s ∧
        s.info.flags.inProgress = false ∧ s.info.lastWriter = some 2 ∧ s.info.clientList = [] :=
  ⟨⟨_, rfl, rfl, rfl, rfl⟩, _, rfl, rfl, rfl, rfl⟩

end SpriteKernel.Fsconsist
