import SpriteKernel.Fsconsist.Owner
import Mathlib.Data.Fintype.Defs

/- What the consistency routines do to the use counts on the client list. An open is counted in the handle first, on
   the list when its traversal is through. So over a step the handle's counts less the list's change by what its
   process still owes the list: `step_balanced`. -/
namespace SpriteKernel.Fsconsist

open List

open SpriteKernel KeyedList Transition

def total (l : ClientList) : UseCounts := (l.map ClientInfo.use).sum

/-- No entry has fewer than no references, and one with none counts for nothing. -/
def Tidy (l : ClientList) : Prop := ∀ c ∈ l, 0 ≤ c.use.ref ∧ (c.use.ref = 0 → c.use = 0)

def Unused (l : ClientList) : Prop := ∀ c ∈ l, c.use = 0

/-- What the open whose traversal this is will add to the list. -/
def Scan.owed : Scan → UseCounts
  | .fileConsistency _ useFlags => UseCounts.ofFlags useFlags
  | _ => 0

/-- What a process owes the list. -/
def Pc.owed : Pc → UseCounts
  | .waitDone (.scan a) | .inRpc (.scanning a _ _) _ | .relock (.scanning a _ _) => a.owed
  | _ => 0

def Request.owed : Request → UseCounts
  | .fileConsistency _ useFlags => UseCounts.ofFlags useFlags
  | _ => 0

/-- The traversal is not that of a migration. -/
def Scan.stays : Scan → Bool
  | .migrateConsistency _ _ => false
  | _ => true

/-- The process is not in a migration. -/
def Pc.stays : Pc → Bool
  | .waitDone (.scan a) | .inRpc (.scanning a _ _) _ | .relock (.scanning a _ _) | .waitReplies (.ending a _) =>
    a.stays
  | _ => true

/-- The process is about to go through the list to remove it. -/
def Pc.removing : Pc → Bool
  | .waitDone (.clientRemoveCallback _) | .relock (.loop (.removing _ _))
  | .waitReplies (.loop (.removing _ _)) => true
  | _ => false

/-- The message a process is out to deliver. -/
def Pc.msg? : Pc → Option ConsistMsgInfo
  | .inRpc _ msg => some msg
  | _ => none

/-! ## Lists with the same uses -/

/-- What is left of a list from which nothing in use was taken. -/
structure SameUses (l' l : ClientList) : Prop where
  total_eq : total l' = total l
  mem : ∀ d ∈ l', ∃ c ∈ l, d.use = c.use

theorem SameUses.refl (l : ClientList) : SameUses l l := ⟨rfl, fun d hd => ⟨d, hd, rfl⟩⟩

variable {l : ClientList} {p : ClientInfo → Bool} {k : HostId} {c : ClientInfo}

theorem SameUses.trans {l' l'' : ClientList} (h₁ : SameUses l'' l') (h₂ : SameUses l' l) : SameUses l'' l := by
  refine ⟨h₁.total_eq.trans h₂.total_eq, fun d hd => ?_⟩
  obtain ⟨c, hc, hdc⟩ := h₁.mem d hd
  obtain ⟨b, hb, hcb⟩ := h₂.mem c hc
  exact ⟨b, hb, hdc.trans hcb⟩

theorem SameUses.tidy {l' : ClientList} (h : SameUses l' l) (ht : Tidy l) : Tidy l' := by
  intro d hd
  obtain ⟨c, hc, hdc⟩ := h.mem d hd
  exact hdc ▸ ht c hc

/-- An update that leaves the use counts alone. -/
def KeepsUse (f : ClientInfo → ClientInfo) : Prop := ∀ c, (f c).use = c.use

theorem keepsUse_setLocked (locked : Bool) : KeepsUse (.setLocked locked) := fun _ => rfl

theorem keepsUse_setCached (cached : Bool) : KeepsUse (.setCached cached) := fun _ => rfl

theorem keepsUse_setOpenTimeStamp (stamp : Nat) : KeepsUse (.setOpenTimeStamp stamp) := fun _ => rfl

theorem sameUses_updateFirst {f : ClientInfo → ClientInfo}
    (hf : KeepsUse f) (l : ClientList) : SameUses (updateFirst p f l) l := by
  refine ⟨?_, fun d hd => ?_⟩
  · unfold total
    rw [map_updateFirst hf]
  · rcases mem_of_mem_updateFirst hd with hd | ⟨c, hc, -, rfl⟩
    · exact ⟨d, hd, rfl⟩
    · exact ⟨c, hc, hf c⟩

theorem sameUses_eraseP (hz : ∀ c, l.find? p = some c → c.use = 0) : SameUses (l.eraseP p) l := by
  refine ⟨?_, fun d hd => ⟨d, mem_of_mem_eraseP hd, rfl⟩⟩
  unfold total
  cases hf : l.find? p with
  | none => rw [eraseP_of_forall_not (by simpa using hf)]
  | some c =>
    rw [sum_eraseP hf, hz c hf, sub_zero]

theorem sameUses_removeClient (hz : ∀ d ∈ l, d.clientID = k → d.use = 0) : SameUses (l.removeClient k) l := by
  refine sameUses_eraseP (fun c hc => ?_)
  obtain ⟨hmem, hid⟩ := ClientList.mem_of_client hc
  exact hz c hmem hid

theorem sameUses_filter (hz : ∀ c ∈ l, p c = false → c.use = 0) : SameUses (l.filter p) l := by
  refine ⟨?_, fun d hd => ⟨d, (mem_filter.mp hd).1, rfl⟩⟩
  unfold total
  induction l with
  | nil => rfl
  | cons c l ih =>
    have ih := ih (fun d hd => hz d (mem_cons_of_mem c hd))
    cases hp : p c with
    | true => rw [filter_cons_of_pos hp, map_cons, map_cons, sum_cons, sum_cons, ih]
    | false =>
      rw [filter_cons_of_neg (by simp [hp]), ih, map_cons, sum_cons,
        hz c mem_cons_self hp, zero_add]

theorem sameUses_unlockAndPin (q : Nat) (next : Option Nat) (s : Info) :
    SameUses (unlockAndPin q next s).clientList s.clientList := by
  have hset : ∀ (r : Nat) (b : Bool) (l : ClientList), SameUses (l.updateAt r (.setLocked b)) l :=
    fun r b l => sameUses_updateFirst (keepsUse_setLocked b) l
  cases next with
  | none => exact hset q false _
  | some r => exact (hset r true _).trans (hset q false _)

/-- A visit to this host takes its entry off only if it has no use left. -/
theorem sameUses_selfList {flags : CmdFlags} {lastWriter : Option HostId} (hz : ∀ d ∈ l, d.ptr = c.ptr → c.use.ref = 0 → d.use = 0) :
    SameUses (selfList c flags lastWriter l) l := by
  have hcached : ∃ l', SameUses l' l ∧ (∀ d ∈ l', d.ptr = c.ptr → c.use.ref = 0 → d.use = 0) ∧
      (if flags.invalidateBlocks then l.updateAt c.ptr (.setCached false) else l) = l' := by
    refine ⟨_, ?_, ?_, rfl⟩
    · split
      · exact sameUses_updateFirst (keepsUse_setCached false) l
      · exact SameUses.refl l
    · split
      · intro d hd hp hr
        rcases mem_of_mem_updateFirst hd with hd | ⟨a, ha, -, rfl⟩
        · exact hz d hd hp hr
        · exact hz a ha hp hr
      · exact hz
  obtain ⟨l', hsame, hz', hl'⟩ := hcached
  simp only [selfList, hl']
  split
  · next hgone =>
    simp only [Bool.and_eq_true, beq_iff_eq] at hgone
    refine SameUses.trans (sameUses_eraseP (fun d hd => ?_)) hsame
    obtain ⟨hmem, hp⟩ := find_ptr hd
    exact hz' d hmem hp hgone.1
  · exact hsame

variable {s : Info}

theorem sameUses_commandSelf (p : Pid) {q : Nat} (next : Option Nat)
    (flags : CmdFlags) (hw : s.clientList.Wf s.fresh) (ht : Tidy s.clientList)
    (hf : s.clientList.find? (fun d => d.ptr == q) = some c) :
    SameUses (commandSelf c flags (logCommand p c flags (unlockAndPin q next s))).clientList s.clientList := by
  refine SameUses.trans (sameUses_selfList (fun d hd hp hr => ?_)) (sameUses_unlockAndPin q next s)
  obtain ⟨d₀, hd₀, b, rfl⟩ := mem_unlockAndPin hd
  obtain ⟨hmem, -⟩ := find_ptr hf
  obtain rfl := eq_of_key_eq hw.ptrs hd₀ hmem hp
  exact (ht d₀ hmem).2 hr

/-! ## The traversals -/

/-- What a stretch leaves: the handle counts `b` more than the list and what the process owes it. -/
structure Balanced (b : UseCounts) (i : Info) (c : Pc) : Prop where
  tidy : Tidy i.clientList
  balance : i.use - total i.clientList = b + c.owed
  stays : c.stays = true

variable {clientID : HostId} {useFlags : UseFlags} {cacheable : Bool}

theorem total_updateList (s : Info) : total (updateList clientID useFlags cacheable s).clientList =
      total s.clientList + UseCounts.ofFlags useFlags := by
  have hins : total (s.clientList.findOrInsert s.fresh clientID) = total s.clientList ∧
      ∃ c, (s.clientList.findOrInsert s.fresh clientID).client clientID = some c := by
    unfold ClientList.findOrInsert
    cases hc : s.clientList.client clientID with
    | some c => exact ⟨rfl, c, hc⟩
    | none =>
      refine ⟨?_, _, List.find?_cons_of_pos (by simp)⟩
      simp [total, ClientList.insertClient]
  obtain ⟨htotal, c, hc⟩ := hins
  have hopen : total (s.clientList.ioClientOpen s.fresh clientID useFlags cacheable) =
      total s.clientList + UseCounts.ofFlags useFlags := by
    unfold ClientList.ioClientOpen ClientList.updateClient total
    rw [sum_updateFirst hc]
    simp only [ClientInfo.setUse]
    rw [add_sub_cancel_left]
    exact congrArg (· + UseCounts.ofFlags useFlags) htotal
  rw [← hopen]
  exact (sameUses_updateFirst (keepsUse_setOpenTimeStamp _) _).total_eq

theorem tidy_updateList (hw : s.clientList.Wf s.fresh) (ht : Tidy s.clientList) :
    Tidy (updateList clientID useFlags cacheable s).clientList := by
  intro d hd
  rcases mem_updateList hw hd with ⟨hd, -⟩ | ⟨-, -, use, huse, hold⟩
  · exact ht d hd
  · have hpos : 0 ≤ use.ref := by
      rcases hold with rfl | ⟨c, hc, -, rfl⟩
      · exact Int.le_refl 0
      · exact (ht c hc).1
    have href : d.use.ref = use.ref + 1 := by
      rw [huse]
      rfl
    omega

variable {b : UseCounts} {a : Scan} {loc : Locals}

theorem balanced_endConsistency (ht : Tidy s.clientList)
    (hb : s.use - total s.clientList = b) (ha : a.stays = true) :
    Balanced b (endConsistency a loc s).1 (endConsistency a loc s).2 := by
  have hzero : s.use - total s.clientList = b + 0 := by rw [hb, add_zero]
  unfold endConsistency
  split
  · exact ⟨ht, hzero, rfl⟩
  · exact ⟨ht, hzero, ha⟩

theorem balanced_afterTraversal (hw : s.clientList.Wf s.fresh) (ht : Tidy s.clientList)
    (hb : s.use - total s.clientList = b + a.owed) (ha : a.stays = true) :
    Balanced b (afterTraversal a loc s).1 (afterTraversal a loc s).2 := by
  cases a with
  | fileConsistency clientID useFlags =>
    refine balanced_endConsistency (tidy_updateList hw ht) ?_ rfl
    rw [total_updateList]
    have hb : s.use - total s.clientList = b + UseCounts.ofFlags useFlags := hb
    calc s.use - (total s.clientList + UseCounts.ofFlags useFlags)
        = s.use - total s.clientList - UseCounts.ofFlags useFlags := (sub_sub _ _ _).symm
      _ = b := by rw [hb, add_sub_cancel_right]
  | reopenConsistency clientID useFlags =>
    have hkeeps : KeepsUse (fun c => (c.setOpenTimeStamp (s.stamp + 1)).setCached loc.cacheable) := fun _ => rfl
    have hsame : SameUses (reopenUpdate clientID useFlags loc.cacheable s).clientList s.clientList :=
      sameUses_updateFirst hkeeps _
    refine balanced_endConsistency (hsame.tidy ht) ?_ rfl
    rw [hsame.total_eq]
    exact hb.trans (add_zero b)
  | migrateConsistency dst useFlags => simp [Scan.stays] at ha
  | getClientAttrs clientID => exact balanced_endConsistency ht (hb.trans (add_zero b)) rfl

variable {env : Env} {p : Pid} {i : Info} {c : Pc} {ptrs : List Nat}

theorem balanced_traverse (hw : s.clientList.Wf s.fresh) (ht : Tidy s.clientList)
    (hb : s.use - total s.clientList = b + a.owed) (ha : a.stays = true)
    (h : traverse env p a loc ptrs s = .ok (i, c)) : Balanced b i c := by
  refine traverse_rule (fun _ _ s => s.clientList.Wf s.fresh ∧ Tidy s.clientList ∧
    s.use - total s.clientList = b + a.owed) (Balanced b) ?_ ?_ ?_ ?_ ⟨hw, ht, hb⟩ h
  · intro loc q rest s c ⟨hw, ht, hb⟩ _ _
    have hsame := sameUses_unlockAndPin q rest.head? s
    exact ⟨wf_unlockAndPin hw q _, hsame.tidy ht, hsame.total_eq ▸ hb⟩
  · intro loc q rest s c flags ⟨hw, ht, hb⟩ hf _ _
    have hsame := sameUses_commandSelf p rest.head? flags hw ht hf
    exact ⟨wf_commandSelf (wf_unlockAndPin hw q _) p c flags, hsame.tidy ht, hsame.total_eq ▸ hb⟩
  · intro loc q rest s c flags ⟨hw, ht, hb⟩ _ _ _ _
    have hsame := sameUses_unlockAndPin q rest.head? s
    exact ⟨hsame.tidy ht, hsame.total_eq ▸ hb, ha⟩
  · intro loc s ⟨hw, ht, hb⟩
    exact balanced_afterTraversal hw ht hb ha

/-! ## The loops -/

theorem Unused.total_eq (h : Unused l) : total l = 0 := by
  refine sum_eq_zero (fun u hu => ?_)
  obtain ⟨c, hc, rfl⟩ := mem_map.mp hu
  exact h c hc

theorem Unused.tidy (h : Unused l) : Tidy l := by
  intro c hc
  rw [h c hc]
  exact ⟨Int.le_refl 0, fun _ => rfl⟩

theorem Unused.removeClient (h : Unused l) (k : HostId) : Unused (l.removeClient k) :=
  fun c hc => h c (mem_of_mem_eraseP hc)

theorem Unused.balanced (h : Unused i.clientList) (hb : i.use = b)
    (ho : c.owed = 0) (hs : c.stays = true) : Balanced b i c :=
  ⟨h.tidy, by rw [h.total_eq, ho, hb, sub_zero, add_zero], hs⟩

theorem balanced_removeLoop (hu : Unused s.clientList) (hb : s.use = b)
    (h : removeLoop env p clientID l s = .ok (i, c)) : Balanced b i c := by
  induction l generalizing s with
  | nil =>
    obtain ⟨rfl, rfl⟩ := h
    exact Unused.balanced hu hb rfl rfl
  | cons d l ih =>
    unfold removeLoop at h
    split at h
    · split at h
      · simp at h
      · next s' msg hx =>
        obtain ⟨rfl, rfl⟩ := h
        obtain ⟨-, -, -, rfl⟩ := clientCommand_post hx
        exact Unused.balanced hu hb rfl rfl
      · next s' hx =>
        obtain ⟨-, rfl⟩ := clientCommand_self hx
        have hu' : Unused (commandSelf d { deleteFile := true } (logCommand p d { deleteFile := true } s)).clientList := by
          intro c hc
          simp only [commandSelf, logCommand, selfList, Bool.false_eq_true, if_false] at hc
          split at hc
          · exact hu c (mem_of_mem_eraseP hc)
          · exact hu c hc
        split at h
        · refine ih ?_ ?_ h
          · exact hu'.removeClient d.clientID
          · exact hb
        · obtain ⟨rfl, rfl⟩ := h
          exact Unused.balanced hu' hb rfl rfl
    · refine ih ?_ ?_ h
      · exact hu.removeClient d.clientID
      · exact hb

theorem balanced_fetchLoop {invalidate : Bool} (hw : s.clientList.Wf s.fresh) (ht : Tidy s.clientList)
    (hb : s.use - total s.clientList = b) (h : fetchLoop env p invalidate ptrs s = .ok (i, c)) :
    Balanced b i c := by
  induction ptrs generalizing s with
  | nil =>
    obtain ⟨rfl, rfl⟩ := h
    exact ⟨ht, hb.trans (add_zero b).symm, rfl⟩
  | cons q rest ih =>
    have hsame := sameUses_unlockAndPin q rest.head? s
    have hwf := wf_unlockAndPin hw q rest.head?
    have hbal : (unlockAndPin q rest.head? s).use - total (unlockAndPin q rest.head? s).clientList = b :=
      hsame.total_eq ▸ hb
    unfold fetchLoop at h
    split at h
    · simp at h
    · next d hd =>
      simp only at h
      split at h
      · simp at h
      · split at h
        · exact ih hwf (hsame.tidy ht) hbal h
        · split at h
          · simp at h
          · next s' msg hx =>
            obtain ⟨rfl, rfl⟩ := h
            obtain ⟨-, -, -, rfl⟩ := clientCommand_post hx
            exact ⟨hsame.tidy ht, hbal.trans (add_zero b).symm, rfl⟩
          · next s' hx =>
            obtain ⟨-, rfl⟩ := clientCommand_self hx
            have hself := sameUses_commandSelf p rest.head?
              { writeBackBlocks := true, invalidateBlocks := invalidate } hw ht hd
            have hwf' := wf_commandSelf hwf p d { writeBackBlocks := true, invalidateBlocks := invalidate }
            split at h
            · refine ih ?_ ?_ ?_ h
              · exact hwf'
              · exact hself.tidy ht
              · exact hself.total_eq ▸ hb
            · obtain ⟨rfl, rfl⟩ := h
              exact ⟨hself.tidy ht, (hself.total_eq ▸ hb : _ = b).trans (add_zero b).symm, rfl⟩

theorem balanced_continueLoop {l : Loop} (hw : s.clientList.Wf s.fresh) (ht : Tidy s.clientList) (hb : s.use - total s.clientList = b)
    (hu : (Pc.waitReplies (.loop l)).removing = true → Unused s.clientList)
    (h : continueLoop env p l s = .ok (i, c)) : Balanced b i c := by
  cases l with
  | removing clientID cur =>
    have hu := hu rfl
    have hb : s.use = b := by rw [← hb, hu.total_eq, sub_zero]
    refine balanced_removeLoop ?_ ?_ h
    · exact hu.removeClient cur
    · exact hb
  | fetching invalidate next => exact balanced_fetchLoop hw ht hb h

/-! ## The steps -/

namespace Server

/-- Only the routines that give counts back take what is in use off the list: no such host is found dead or re-opens
    with no use, no such file is removed. Migrations are left out. -/
def KeepsUses (s : Server) : Label → Prop
  | .call _ (.migrateConsistency _ _ _ _) => False
  | .call _ (.clientRemoveCallback _) => s.info.flags.inProgress = false → Unused s.info.clientList
  | .call _ (.reopenConsistency clientID use swap cacheable) => reopenFlags use swap cacheable = {} →
      ∀ d ∈ s.info.clientList, d.clientID = clientID → d.use = 0
  | .wake p | .relock p | .repliesIn p => (s.pc p).removing = true → Unused s.info.clientList
  | .rpcReturn p status => status = .down → ∀ msg ∈ (s.pc p).msg?, ∀ d ∈ s.info.clientList,
      d.clientID = msg.clientID → d.use = 0
  | .consistTimeout => ∀ m ∈ s.info.msgList, ∀ d ∈ s.info.clientList, d.clientID = m.clientID → d.use = 0
  | .close _ _ | .kill _ | .ioClientKill _ | .reopenClient _ _ _ => False
  | _ => True

instance (l : ClientList) : Decidable (Unused l) := inferInstanceAs (Decidable (∀ c ∈ l, c.use = 0))

instance (s : Server) : (l : Label) → Decidable (KeepsUses s l)
  | .call p r => by cases r <;> unfold KeepsUses <;> infer_instance
  | .wake _ | .relock _ | .repliesIn _ | .deleteLastWriter _ | .kill _ | .ioClientKill _ => by unfold KeepsUses; infer_instance
  | .rpcReturn _ _ | .close _ _ | .consistReply _ _ => by unfold KeepsUses; infer_instance
  | .numClients | .timeoutIntr | .consistTimeout | .reopenClient _ _ _ => by unfold KeepsUses; infer_instance

variable {env : Env} {p : Pid} {b : UseCounts} {s i : Info} {c : Pc}

theorem balanced_start (hw : s.clientList.Wf s.fresh) (ht : Tidy s.clientList) (hb : s.use - total s.clientList = b + a.owed)
    (ha : a.stays = true) (h : start env p (.scan a) s = .ok (i, c)) : Balanced b i c := by
  refine balanced_traverse ?_ ?_ ?_ ha h
  · exact hw
  · exact ht
  · exact hb

theorem balanced_beginOrWait (hw : s.clientList.Wf s.fresh) (ht : Tidy s.clientList) (hb : s.use - total s.clientList = b + a.owed)
    (ha : a.stays = true) (h : beginOrWait env p (.scan a) s = .ok (i, c)) : Balanced b i c := by
  unfold beginOrWait at h
  split at h
  · obtain ⟨rfl, rfl⟩ := h
    exact ⟨ht, hb, ha⟩
  · exact balanced_start hw ht hb ha h

theorem free_owed (h : c.free = true) : c.owed = 0 := by
  cases c <;> simp_all [Pc.free, Pc.owed]

theorem balanced_loopStart {a : Action} (hw : s.clientList.Wf s.fresh) (ht : Tidy s.clientList) (hb : s.use - total s.clientList = b)
    (hu : (Pc.waitDone a).removing = true → Unused s.clientList) (ha : ∀ scan, a ≠ .scan scan)
    (h : start env p a s = .ok (i, c)) : Balanced b i c := by
  unfold start at h
  cases a with
  | scan a => exact absurd rfl (ha a)
  | clientRemoveCallback clientID =>
    have hu := hu rfl
    refine balanced_removeLoop ?_ ?_ h
    · exact hu
    · rw [← hb, hu.total_eq, sub_zero]
  | fetchDirtyBlocks invalidate =>
    simp only at h
    split at h
    · obtain ⟨rfl, rfl⟩ := h
      exact ⟨ht, hb.trans (add_zero b).symm, rfl⟩
    · refine balanced_fetchLoop ?_ ?_ ?_ h
      · exact hw
      · exact ht
      · exact hb

/-- What the label adds to what its process owes the list. -/
def brings : Label → UseCounts
  | .call _ r => r.owed
  | _ => 0

variable {l : Label}

theorem balanced_runs {s : Server} (hb : Base s)
    (ht : Tidy s.info.clientList) (hp : (s.pc p).stays = true) (hl : KeepsUses s l)
    (hr : Runs env s p l (.ok (i, c))) :
    Balanced (s.info.use - total s.info.clientList - ((s.pc p).owed + brings l)) i c := by
  generalize hst : (Except.ok (i, c) : Stretch) = st at hr
  cases hr with
  | enter r hfree =>
    have hscan : ∀ a : Scan, a.owed = r.owed → a.stays = true → beginOrWait env p (.scan a) s.info = .ok (i, c) →
        Balanced (s.info.use - total s.info.clientList - ((s.pc p).owed + brings (.call p r))) i c := by
      intro a hao has h
      refine balanced_beginOrWait hb.wf ht ?_ has h
      rw [free_owed hfree, zero_add, brings, hao, sub_add_cancel]
    have hloop : ∀ a : Action, (∀ scan, a ≠ .scan scan) → r.owed = 0 →
        ((Pc.waitDone a).removing = true → s.info.flags.inProgress = false → Unused s.info.clientList) →
        (Pc.waitDone a).owed = 0 → (Pc.waitDone a).stays = true → beginOrWait env p a s.info = .ok (i, c) →
        Balanced (s.info.use - total s.info.clientList - ((s.pc p).owed + brings (.call p r))) i c := by
      intro a ha hro hu hwo hws h
      rw [free_owed hfree, zero_add, brings, hro, sub_zero]
      unfold beginOrWait at h
      split at h
      · obtain ⟨rfl, rfl⟩ := h
        exact ⟨ht, by rw [hwo, add_zero], hws⟩
      · next hclear =>
        exact balanced_loopStart hb.wf ht rfl (fun hrem => hu hrem (by simpa using hclear)) ha h
    cases r with
    | fileConsistency clientID useFlags => exact hscan _ rfl rfl hst.symm
    | getClientAttrs clientID => exact hscan _ rfl rfl hst.symm
    | reopenConsistency clientID use swap cacheable =>
      simp only [Request.enter, Fsconsist.reopenConsistency] at hst
      split at hst
      · next hz =>
        obtain ⟨rfl, rfl⟩ := hst
        have hsame := sameUses_removeClient (hl hz)
        refine ⟨hsame.tidy ht, ?_, rfl⟩
        rw [free_owed hfree]
        simp only [hsame.total_eq, brings, Request.owed, Pc.owed, add_zero, sub_zero]
      · exact hscan _ rfl rfl hst.symm
    | migrateConsistency src dst useFlags closeSrc => exact hl.elim
    | clientRemoveCallback clientID =>
      exact hloop _ (by simp) rfl (fun _ hclear => hl hclear) rfl rfl hst.symm
    | fetchDirtyBlocks invalidate =>
      exact hloop _ (by simp) rfl (fun hrem => by simp [Pc.removing] at hrem) rfl rfl hst.symm
  | wake a hpc hclear =>
    rw [hpc] at hp ⊢
    have hl : (s.pc p).removing = true → Unused s.info.clientList := hl
    rw [hpc] at hl
    cases a with
    | scan a =>
      refine balanced_start hb.wf ht ?_ hp hst.symm
      simp only [Pc.owed, brings, add_zero, sub_add_cancel]
    | clientRemoveCallback clientID =>
      refine balanced_loopStart hb.wf ht ?_ hl (by simp) hst.symm
      simp only [Pc.owed, brings, add_zero, sub_zero]
    | fetchDirtyBlocks invalidate =>
      refine balanced_loopStart hb.wf ht ?_ hl (by simp) hst.symm
      simp only [Pc.owed, brings, add_zero, sub_zero]
  | relock f hpc =>
    rw [hpc] at hp ⊢
    have hl : (s.pc p).removing = true → Unused s.info.clientList := hl
    rw [hpc] at hl
    cases f with
    | scanning a loc next =>
      refine balanced_traverse hb.wf ht ?_ hp hst.symm
      simp only [Pc.owed, brings, add_zero, sub_add_cancel]
    | loop l =>
      have hbal : s.info.use - total s.info.clientList =
          s.info.use - total s.info.clientList - ((Pc.relock (.loop l)).owed + brings (.relock p)) := by
        simp only [Pc.owed, brings, add_zero, sub_zero]
      have hrem : (Pc.waitReplies (.loop l)).removing = true → Unused s.info.clientList := by
        intro h
        refine hl ?_
        cases l <;> exact h
      simp only [resume] at hst
      split at hst
      · refine balanced_continueLoop ?_ ?_ ?_ ?_ hst.symm
        · exact hb.wf
        · exact ht
        · exact hbal
        · exact hrem
      · obtain ⟨rfl, rfl⟩ := hst
        exact ⟨ht, hbal.trans (add_zero _).symm, rfl⟩
  | repliesIn f hpc hempty =>
    rw [hpc] at hp ⊢
    have hl : (s.pc p).removing = true → Unused s.info.clientList := hl
    rw [hpc] at hl
    have hbal : s.info.use - total s.info.clientList =
        s.info.use - total s.info.clientList - ((Pc.waitReplies f).owed + brings (.repliesIn p)) := by
      simp only [Pc.owed, brings, add_zero, sub_zero]
    cases f with
    | ending a loc =>
      obtain ⟨rfl, rfl⟩ := hst
      exact ⟨ht, hbal.trans (add_zero _).symm, rfl⟩
    | loop l =>
      refine balanced_continueLoop ?_ ?_ ?_ ?_ hst.symm
      · exact hb.wf
      · exact ht
      · exact hbal
      · exact hl

theorem sameUses_ioClientKill {l : ClientList} (hz : ∀ d ∈ l, d.clientID = k → d.use = 0) :
    SameUses (l.ioClientKill k).2 l := by
  unfold ClientList.ioClientKill
  cases hc : l.client k with
  | none => exact SameUses.refl l
  | some c =>
    obtain ⟨hmem, hid⟩ := ClientList.mem_of_client hc
    simp only
    split
    · refine ⟨?_, fun d hd => ?_⟩
      · unfold ClientList.updateClient total
        rw [sum_updateFirst hc, hz c hmem hid]
        simp [ClientInfo.setUse]
      · rcases mem_of_mem_updateFirst hd with hd | ⟨a, ha, hak, rfl⟩
        · exact ⟨d, hd, rfl⟩
        · exact ⟨a, ha, (hz a ha (by simpa using hak)).symm⟩
    · exact sameUses_removeClient hz

theorem mem_ioClientKill {l : ClientList} {d : ClientInfo} (hd : d ∈ (l.ioClientKill k).2) : d ∈ l ∨ d.use = 0 := by
  unfold ClientList.ioClientKill at hd
  split at hd
  · exact .inl hd
  · split at hd
    · rcases mem_of_mem_updateFirst hd with hd | ⟨a, -, -, rfl⟩
      · exact .inl hd
      · exact .inr rfl
    · exact .inl (mem_of_mem_eraseP hd)

theorem sameUses_timeoutLoop (msgs : List ConsistMsgInfo) (hz : ∀ m ∈ msgs, ∀ d ∈ s.clientList, d.clientID = m.clientID → d.use = 0) :
    SameUses (timeoutLoop msgs s).clientList s.clientList ∧ (timeoutLoop msgs s).use = s.use := by
  induction msgs generalizing s with
  | nil => exact ⟨SameUses.refl _, rfl⟩
  | cons m msgs ih =>
    have hkill := sameUses_ioClientKill (hz m mem_cons_self)
    obtain ⟨hsame, huse⟩ := ih (s := { s with
      clientList := (s.clientList.ioClientKill m.clientID).2
      lastWriter := if s.lastWriter == some m.clientID then none else s.lastWriter
      msgList := msgs }) (fun m' hm' d hd hid => by
        rcases mem_ioClientKill hd with hd | hzero
        · exact hz m' (mem_cons_of_mem m hm') d hd hid
        · exact hzero)
    exact ⟨hsame.trans hkill, huse⟩

section
variable (ht : Tidy s.clientList)
include ht

theorem sameUses_processConsistReply {success : Bool} :
    SameUses (processConsistReply clientID success s).clientList s.clientList ∧
      (processConsistReply clientID success s).use = s.use := by
  unfold processConsistReply
  split
  · exact ⟨SameUses.refl _, rfl⟩
  · split
    · exact ⟨SameUses.refl _, rfl⟩
    · refine ⟨?_, rfl⟩
      simp only [replyList]
      split
      · exact SameUses.refl _
      · next c hc =>
        split
        · next hgone =>
          simp only [Bool.and_eq_true, beq_iff_eq] at hgone
          obtain ⟨hmem, -⟩ := ClientList.mem_of_client hc
          refine sameUses_eraseP (fun d hd => ?_)
          cases hc.symm.trans hd
          exact (ht c hmem).2 hgone.1
        · split
          · exact sameUses_updateFirst (keepsUse_setCached false) _
          · exact SameUses.refl _

theorem sameUses_numClients :
    SameUses (Fsconsist.numClients env s).2.clientList s.clientList ∧
      (Fsconsist.numClients env s).2.use = s.use := by
  unfold Fsconsist.numClients
  split
  · exact ⟨SameUses.refl _, rfl⟩
  · refine ⟨sameUses_filter (fun d hd hgone => ?_), rfl⟩
    simp only [inUse, Bool.not_eq_false', Bool.and_eq_true, beq_iff_eq] at hgone
    exact (ht d hd).2 hgone.1.1

theorem sameUses_deleteLastWriter :
    SameUses (Fsconsist.deleteLastWriter clientID s).clientList s.clientList ∧
      (Fsconsist.deleteLastWriter clientID s).use = s.use := by
  unfold Fsconsist.deleteLastWriter
  split
  · exact ⟨SameUses.refl _, rfl⟩
  · split
    · exact ⟨SameUses.refl _, rfl⟩
    · next c hc =>
      split
      · next hgone =>
        refine ⟨?_, rfl⟩
        split
        · exact SameUses.refl _
        · obtain ⟨hmem, -⟩ := ClientList.mem_of_client hc
          refine sameUses_eraseP (fun d hd => ?_)
          cases hc.symm.trans hd
          simp only [Bool.and_eq_true, beq_iff_eq] at hgone
          exact (ht c hmem).2 hgone.1
      · exact ⟨SameUses.refl _, rfl⟩

end

theorem Acts.sameUses {s : Server} (ht : Tidy s.info.clientList)
    (hl : KeepsUses s l) (h : Acts env s l i) : SameUses i.clientList s.info.clientList ∧ i.use = s.info.use := by
  cases h with
  | close => exact hl.elim
  | numClients => exact sameUses_numClients ht
  | deleteLastWriter clientID => exact sameUses_deleteLastWriter ht
  | kill => exact hl.elim
  | ioClientKill => exact hl.elim
  | consistReply clientID success => exact sameUses_processConsistReply ht
  | timeoutIntr => exact ⟨SameUses.refl _, rfl⟩
  | consistTimeout => exact sameUses_timeoutLoop _ hl
  | reopenClient => exact hl.elim

theorem Returns.sameUses {s : Server} {f : CallFrame} {msg : ConsistMsgInfo} {status : RpcStatus}
    (hpc : s.pc p = .inRpc f msg) (hl : KeepsUses s (.rpcReturn p status))
    (h : Returns s msg status i) : SameUses i.clientList s.info.clientList ∧ i.use = s.info.use := by
  cases h with
  | success => exact ⟨SameUses.refl _, rfl⟩
  | down => exact ⟨sameUses_ioClientKill (hl rfl msg (by rw [hpc]; rfl)), rfl⟩
  | other => exact ⟨SameUses.refl _, rfl⟩

/-- The counts of the handle less those listed change by what the process has come to owe the list, and did not
    bring. -/
structure Accounts (s t : Server) (l : Label) : Prop where
  tidy : Tidy t.info.clientList
  stays : ∀ q, (t.pc q).stays = true
  others : ∀ q, l.process? ≠ some q → t.pc q = s.pc q
  balance : ∀ p, l.process? = some p → t.info.use - total t.info.clientList =
    s.info.use - total s.info.clientList - ((s.pc p).owed + brings l) + (t.pc p).owed
  same : l.process? = none → t.info.use - total t.info.clientList = s.info.use - total s.info.clientList

theorem step_balanced {s t : Server} (hb : Base s) (ht : Tidy s.info.clientList)
    (hs : ∀ p, (s.pc p).stays = true) (hl : KeepsUses s l) (h : step env s l = some t)
    (hok : t.panic = none) : Accounts s t l := by
  obtain ⟨-, ⟨e, -, rfl⟩ | ⟨p, i, c, hr, rfl⟩ | ⟨p, f, msg, status, i, rfl, hpc, hr, rfl⟩ | ⟨i, n, ha, rfl⟩⟩ :=
    step_cases h
  · simp [stop] at hok
  · have hbal := balanced_runs hb ht (hs p) hl hr
    have hproc := hr.process
    refine ⟨hbal.tidy, fun q => ?_, fun q hq => ?_, fun q hq => ?_, fun hn => ?_⟩
    · by_cases hq : q = p
      · subst hq
        rw [put_pc_self]
        exact hbal.stays
      · rw [put_pc_of_ne s hq]
        exact hs q
    · refine put_pc_of_ne s ?_ i c
      rintro rfl
      exact hq hproc
    · cases hproc.symm.trans hq
      rw [put_pc_self]
      exact hbal.balance
    · simp [hproc] at hn
  · obtain ⟨hsame, huse⟩ := hr.sameUses hpc hl
    have howed : (Pc.relock f).owed = (s.pc p).owed := by
      rw [hpc]
      cases f <;> rfl
    refine ⟨hsame.tidy ht, fun q => ?_, fun q hq => ?_, fun q hq => ?_, fun hn => ?_⟩
    · by_cases hq : q = p
      · subst hq
        have hq := hs q
        rw [hpc] at hq
        rw [put_pc_self]
        cases f <;> exact hq
      · rw [put_pc_of_ne s hq]
        exact hs q
    · refine put_pc_of_ne s ?_ i _
      rintro rfl
      exact hq rfl
    · cases hq
      rw [put_pc_self, put_info, huse, hsame.total_eq, howed]
      simp only [brings, add_zero, sub_add_cancel]
    · simp [Label.process?] at hn
  · obtain ⟨hsame, huse⟩ := ha.sameUses ht hl
    refine ⟨hsame.tidy ht, hs, fun _ _ => rfl, fun q hq => ?_, fun _ => by simp only [huse, hsame.total_eq]⟩
    cases ha <;> simp [Label.process?] at hq

end Server

end SpriteKernel.Fsconsist
