import SpriteKernel.Fsconsist.System
import SpriteKernel.Lib.Cursor
import Mathlib.Data.List.Forall2

/- What the rest of the server does to a file while a traversal has given the monitor up. All but a re-open only take
   away: entries leave the list or are lowered, messages leave `msgList`, `lastWriter` is forgotten (`Interferes`). -/
namespace SpriteKernel.Fsconsist
open ClientInfo (ptr setUse)

open List

open SpriteKernel KeyedList List

/-- `d` is `c` with less use of the file. -/
structure Lowered (d c : ClientInfo) : Prop where
  ptr : d.ptr = c.ptr
  clientID : d.clientID = c.clientID
  locked : d.locked = c.locked
  cached : d.cached = true → c.cached = true
  ref : 0 < d.use.ref → 0 < c.use.ref
  write : 0 < d.use.write → 0 < c.use.write
  write_nonneg : 0 ≤ c.use.write → 0 ≤ d.use.write

theorem Lowered.refl (c : ClientInfo) : Lowered c c := ⟨rfl, rfl, rfl, id, id, id, id⟩

instance : Std.Refl Lowered := ⟨Lowered.refl⟩

instance : IsTrans ClientInfo Lowered :=
  ⟨fun _ _ _ h₁ h₂ => ⟨h₁.ptr.trans h₂.ptr, h₁.clientID.trans h₂.clientID, h₁.locked.trans h₂.locked,
    h₂.cached ∘ h₁.cached, h₂.ref ∘ h₁.ref, h₂.write ∘ h₁.write, h₁.write_nonneg ∘ h₂.write_nonneg⟩⟩

theorem lowered_setCached (c : ClientInfo) : Lowered (c.setCached false) c :=
  ⟨rfl, rfl, rfl, by simp [ClientInfo.setCached], id, id, id⟩

/-- The list `l'` is what is left of `l`, in order, its entries lowered in place. -/
abbrev Below (l' l : ClientList) : Prop := SublistForall₂ Lowered l' l

theorem Below.refl (l : ClientList) : Below l l := Std.Refl.refl l

variable {l l' : ClientList} {f : ClientInfo → ClientInfo}

theorem Below.trans {l'' : ClientList} (h₁ : Below l'' l') (h₂ : Below l' l) : Below l'' l :=
  IsTrans.trans _ _ _ h₁ h₂

theorem Below.of_sublist (h : List.Sublist l' l) : Below l' l := h.sublistForall₂

theorem Below.updateFirst {p : ClientInfo → Bool}
    (hf : ∀ c, p c = true → Lowered (f c) c) (l : ClientList) : Below (updateFirst p f l) l := by
  induction l with
  | nil => exact .nil
  | cons c l ih =>
    unfold KeyedList.updateFirst
    split
    · next hp => exact .cons (hf c hp) (Below.refl l)
    · exact .cons (Lowered.refl c) ih

variable {d : ClientInfo}

theorem Below.exists_lowered (h : Below l' l) (hd : d ∈ l') : ∃ c ∈ l, Lowered d c := by
  induction h with
  | nil => simp at hd
  | cons hdc _ ih =>
    rcases mem_cons.mp hd with rfl | hd
    · exact ⟨_, mem_cons_self, hdc⟩
    · obtain ⟨c, hc, hdc⟩ := ih hd
      exact ⟨c, mem_cons_of_mem _ hc, hdc⟩
  | cons_right _ ih =>
    obtain ⟨c, hc, hdc⟩ := ih hd
    exact ⟨c, mem_cons_of_mem _ hc, hdc⟩

/-- What lowering does not touch reads the same on the entries left. -/
theorem Below.map_sublist {β : Type} {k : ClientInfo → β} (hk : ∀ d c, Lowered d c → k d = k c)
    (h : Below l' l) : List.Sublist (l'.map k) (l.map k) := by
  induction h with
  | nil => exact nil_sublist _
  | cons hdc _ ih =>
    rw [map_cons, map_cons, hk _ _ hdc]
    exact ih.cons_cons _
  | cons_right _ ih => exact ih.cons _

theorem Below.ptrs (h : Below l' l) : List.Sublist (l'.map ptr) (l.map ptr) :=
  h.map_sublist (fun _ _ hl => hl.ptr)

variable {fresh : Nat}

theorem Below.wf (h : Below l' l) (hw : l.Wf fresh) : l'.Wf fresh := by
  refine ⟨hw.ids.sublist (h.map_sublist (fun _ _ hl => hl.clientID)), hw.ptrs.sublist h.ptrs, ?_⟩
  intro d hd
  obtain ⟨c, hc, hdc⟩ := h.exists_lowered hd
  exact hdc.ptr ▸ hw.old c hc

/-- What a step of another process may do while an action is in progress. -/
structure Interferes (s s' : Info) : Prop where
  inProgress : s'.flags.inProgress = s.flags.inProgress
  list : Below s'.clientList s.clientList
  lastWriter : s'.lastWriter = s.lastWriter ∨ s'.lastWriter = none
  msgs : List.Sublist s'.msgList s.msgList
  fresh : s'.fresh = s.fresh
  log : s'.log = s.log

theorem Interferes.refl (s : Info) : Interferes s s :=
  ⟨rfl, Below.refl _, .inl rfl, List.Sublist.refl _, rfl, rfl⟩

variable {s : Info}

theorem Interferes.trans {s' s'' : Info} (h₁ : Interferes s s') (h₂ : Interferes s' s'') :
    Interferes s s'' where
  inProgress := h₂.inProgress.trans h₁.inProgress
  list := h₂.list.trans h₁.list
  lastWriter := by
    rcases h₂.lastWriter with h | h
    · rw [h]
      exact h₁.lastWriter
    · exact .inr h
  msgs := h₂.msgs.trans h₁.msgs
  fresh := h₂.fresh.trans h₁.fresh
  log := h₂.log.trans h₁.log

/-! ## The client list routines -/

variable {clientID : HostId} {c : ClientInfo} {flags : UseFlags}

theorem below_updateClient (hw : l.Wf fresh) (hc : l.client clientID = some c)
    (hf : Lowered (f c) c) : Below (l.updateClient clientID f) l := by
  obtain ⟨hmem, hid⟩ := ClientList.mem_of_client hc
  clear hc
  unfold ClientList.updateClient
  have hnd := hw.ids
  clear hw
  induction l with
  | nil => exact .nil
  | cons d l ih =>
    rw [map_cons, nodup_cons] at hnd
    unfold KeyedList.updateFirst
    split
    · next hd =>
      have hdc : d = c := by
        rcases mem_cons.mp hmem with rfl | hmem
        · rfl
        · refine absurd (mem_map.mpr ⟨c, hmem, ?_⟩) hnd.1
          rw [hid]
          exact (by simpa using hd : d.clientID = clientID).symm
      exact .cons (hdc ▸ hf) (Below.refl l)
    · next hd =>
      rcases mem_cons.mp hmem with rfl | hmem
      · simp [hid] at hd
      · exact .cons (Lowered.refl d) (ih hmem hnd.2)

theorem below_ioClientClose {cache : Bool} {r : ClientList.CloseResult} (hw : l.Wf fresh)
    (h : l.ioClientClose clientID flags cache = .ok r) : Below r.list l := by
  rcases ioClientClose_spec h with ⟨-, rfl⟩ | ⟨c, hc, -, hneg, -, -, hlist⟩
  · exact Below.refl l
  · have hnn := UseCounts.nonneg_of_not_negative hneg
    rcases hlist with ⟨-, hlist⟩ | ⟨-, hlist⟩
    · rw [hlist]
      exact Below.of_sublist eraseP_sublist
    · rw [hlist]
      refine below_updateClient hw hc ⟨rfl, rfl, rfl, id, ?_, ?_, fun _ => hnn.2.1⟩
      · simp only [setUse, UseCounts.sub_ref, UseCounts.ofFlags]
        omega
      · simp only [setUse, UseCounts.sub_write, UseCounts.ofFlags]
        split <;> omega

theorem below_ioClientKill (hw : l.Wf fresh) (clientID : HostId) : Below (l.ioClientKill clientID).2 l := by
  unfold ClientList.ioClientKill
  cases hc : l.client clientID with
  | none => exact Below.refl l
  | some c =>
    simp only
    split
    · exact below_updateClient hw hc ⟨rfl, rfl, rfl, id, by simp [setUse], by simp [setUse],
        by simp [setUse]⟩
    · exact Below.of_sublist eraseP_sublist

theorem below_selfList (c : ClientInfo) (flags : CmdFlags) (lastWriter : Option HostId)
    (l : ClientList) : Below (selfList c flags lastWriter l) l := by
  have hcached : Below (if flags.invalidateBlocks then l.updateAt c.ptr (.setCached false) else l) l := by
    split
    · exact Below.updateFirst (fun c _ => lowered_setCached c) _
    · exact Below.refl _
  simp only [selfList]
  by_cases hgone : (c.use.ref == 0 && lastWriter != some c.clientID) = true
  · rw [if_pos hgone]
    exact (Below.of_sublist eraseP_sublist).trans hcached
  · rw [if_neg hgone]
    exact hcached

theorem below_commandSelf (c : ClientInfo) (flags : CmdFlags) (s : Info) :
    Below (commandSelf c flags s).clientList s.clientList :=
  below_selfList c flags _ s.clientList

/-! ## The routines that do not wait -/

variable {i : Info}

theorem interferes_close {found wasCached : Bool} (hw : s.clientList.Wf s.fresh) (h : close clientID flags s = .ok (found, wasCached, i)) :
    Interferes s i := by
  unfold close at h
  split at h
  · simp at h
  · next r hr =>
    split at h
    · simp only [Except.ok.injEq, Prod.mk.injEq] at h
      rw [← h.2.2]
      exact Interferes.refl s
    · simp only [Except.ok.injEq, Prod.mk.injEq] at h
      rw [← h.2.2]
      refine ⟨rfl, below_ioClientClose hw hr, ?_, List.Sublist.refl _, rfl, rfl⟩
      split
      · exact .inr rfl
      · exact .inl rfl

theorem interferes_numClients (env : Env) (s : Info) : Interferes s (numClients env s).2 := by
  unfold numClients
  split
  · exact Interferes.refl s
  · exact ⟨rfl, Below.of_sublist filter_sublist, .inl rfl, List.Sublist.refl _, rfl, rfl⟩

theorem interferes_deleteLastWriter (clientID : HostId) (s : Info) : Interferes s (deleteLastWriter clientID s) := by
  unfold deleteLastWriter
  split
  · exact Interferes.refl s
  · split
    · exact Interferes.refl s
    · split
      · refine ⟨rfl, ?_, .inr rfl, List.Sublist.refl _, rfl, rfl⟩
        split
        · exact Below.refl _
        · exact Below.of_sublist eraseP_sublist
      · exact Interferes.refl s

theorem interferes_kill (hw : s.clientList.Wf s.fresh) (clientID : HostId) : Interferes s (kill clientID s).2 := by
  refine ⟨rfl, below_ioClientKill hw clientID, ?_, eraseP_sublist, rfl, rfl⟩
  simp only [kill]
  split
  · exact .inr rfl
  · exact .inl rfl

theorem interferes_timeoutLoop (msgs : List ConsistMsgInfo) (hw : s.clientList.Wf s.fresh)
    (hm : s.msgList = msgs) : Interferes s (timeoutLoop msgs s) := by
  induction msgs generalizing s with
  | nil => exact Interferes.refl s
  | cons m msgs ih =>
    have hbelow := below_ioClientKill hw m.clientID
    refine Interferes.trans ?_ (ih (hbelow.wf hw) rfl)
    refine ⟨rfl, hbelow, ?_, ?_, rfl, rfl⟩
    · split
      · exact .inr rfl
      · exact .inl rfl
    · simp [hm]

theorem below_replyList (clientID : HostId) (flags : CmdFlags) (lastWriter : Option HostId)
    (l : ClientList) : Below (replyList clientID flags lastWriter l) l := by
  unfold replyList
  split
  · exact Below.refl l
  · split
    · exact Below.of_sublist eraseP_sublist
    · split
      · exact Below.updateFirst (fun c _ => lowered_setCached c) l
      · exact Below.refl l

theorem interferes_processConsistReply (clientID : HostId) (success : Bool) (s : Info) :
    Interferes s (processConsistReply clientID success s) := by
  unfold processConsistReply
  split
  · exact Interferes.refl s
  · split
    · exact ⟨rfl, Below.refl _, .inl rfl, eraseP_sublist, rfl, rfl⟩
    · refine ⟨rfl, below_replyList _ _ _ _, ?_, eraseP_sublist, rfl, rfl⟩
      simp only [replyLastWriter]
      split
      · exact .inr rfl
      · exact .inl rfl

/-- Every routine that does not wait, but a re-open. -/
def Label.reopens : Label → Bool
  | .reopenClient _ _ _ => true
  | _ => false

theorem Server.Acts.interferes {env : Env} {s : Server} {l : Label} (hw : s.info.clientList.Wf s.info.fresh) (h : Server.Acts env s l i) (hl : l.reopens = false) :
    Interferes s.info i := by
  cases h with
  | close clientID flags found wasCached i h => exact interferes_close hw h
  | numClients => exact interferes_numClients env s.info
  | deleteLastWriter clientID => exact interferes_deleteLastWriter clientID s.info
  | kill clientID => exact interferes_kill hw clientID
  | ioClientKill clientID =>
    exact ⟨rfl, below_ioClientKill hw clientID, .inl rfl, List.Sublist.refl _, rfl, rfl⟩
  | consistReply clientID success => exact interferes_processConsistReply clientID success s.info
  | timeoutIntr => exact ⟨rfl, Below.refl _, .inl rfl, List.Sublist.refl _, rfl, rfl⟩
  | consistTimeout => exact interferes_timeoutLoop _ hw rfl
  | reopenClient clientID use haveDirtyBlocks i h => simp [Label.reopens] at hl

theorem Server.Returns.interferes {s : Server} {msg : ConsistMsgInfo} {status : RpcStatus} (hw : s.info.clientList.Wf s.info.fresh) (h : Server.Returns s msg status i) :
    Interferes s.info i := by
  cases h with
  | success => exact Interferes.refl _
  | down => exact interferes_kill hw msg.clientID
  | other => exact ⟨rfl, Below.refl _, .inl rfl, eraseP_sublist, rfl, rfl⟩

/-! ## Where a traversal is -/

variable {q : Nat} {next : Option Nat}

theorem find_ptr (h : l.find? (fun c => c.ptr == q) = some d) : d ∈ l ∧ d.ptr = q :=
  ⟨mem_of_find?_eq_some h, by simpa using List.find?_some h⟩

theorem map_ptr_unlockAndPin (q : Nat) (next : Option Nat) (s : Info) :
    (unlockAndPin q next s).clientList.map ptr = s.clientList.map ptr := by
  have hunlock : (s.clientList.updateAt q (.setLocked false)).map ptr =
      s.clientList.map ptr :=
    ClientList.map_ptr_updateAt (ClientList.keepsKeys_setLocked false) _
  cases next with
  | none => exact hunlock
  | some r =>
    refine Eq.trans ?_ hunlock
    exact ClientList.map_ptr_updateAt (ClientList.keepsKeys_setLocked true) _

theorem mem_updateAt_setLocked {b : Bool} (h : c ∈ l.updateAt q (.setLocked b)) : ∃ c₀ ∈ l, ∃ b', c = c₀.setLocked b' := by
  rcases mem_of_mem_updateFirst h with h | ⟨c₀, hc₀, -, rfl⟩
  · exact ⟨c, h, c.locked, rfl⟩
  · exact ⟨c₀, hc₀, b, rfl⟩

theorem mem_unlockAndPin (h : c ∈ (unlockAndPin q next s).clientList) : ∃ c₀ ∈ s.clientList, ∃ b, c = c₀.setLocked b := by
  cases next with
  | none => exact mem_updateAt_setLocked h
  | some r =>
    obtain ⟨c₁, hc₁, b, rfl⟩ := mem_updateAt_setLocked h
    obtain ⟨c₀, hc₀, b', rfl⟩ := mem_updateAt_setLocked hc₁
    exact ⟨c₀, hc₀, b, rfl⟩

theorem map_ptr_removeAt (q : Nat) (l : ClientList) : (l.removeAt q).map ptr = (l.map ptr).erase q := by
  rw [erase_eq_eraseP', eraseP_map]
  rfl

variable {flags : CmdFlags} {lastWriter : Option HostId} {rest : List Nat}

theorem suffix_selfList (hn : (l.map ptr).Nodup) (h : c.ptr :: rest <:+ l.map ptr) :
    rest <:+ (selfList c flags lastWriter l).map ptr := by
  have hmap : (if flags.invalidateBlocks then l.updateAt c.ptr (.setCached false) else l).map
      ptr = l.map ptr := by
    split
    · exact ClientList.map_ptr_updateAt (ClientList.keepsKeys_setCached false) _
    · rfl
  simp only [selfList]
  by_cases hgone : (c.use.ref == 0 && lastWriter != some c.clientID) = true
  · rw [if_pos hgone, map_ptr_removeAt, hmap]
    exact Cursor.suffix_erase hn h
  · rw [if_neg hgone, hmap]
    exact (suffix_cons c.ptr rest).trans h

theorem ptrsFrom_of_suffix (hn : (l.map ptr).Nodup) (h : rest <:+ l.map ptr) : ptrsFrom rest.head? l = rest := by
  cases rest with
  | nil => rfl
  | cons q rest =>
    have hrest := Cursor.rest_of_suffix hn h
    simp only [List.head?_cons, ptrsFrom]
    rw [show (l.map ptr).dropWhile (fun r => r != q) = q :: rest from hrest]
    rfl

theorem ptrsFrom_eq_rest (h : q ∈ l.map ptr) : ptrsFrom (some q) l = Cursor.rest q (l.map ptr) := by
  obtain ⟨ys, hys⟩ := Cursor.rest_eq_cons h
  simp only [ptrsFrom]
  rw [show (l.map ptr).dropWhile (fun r => r != q) = q :: ys from hys, hys]
  rfl

/-- Lowering the list puts nothing new ahead of a traversal. -/
theorem mem_ptrsFrom_of_below (h : Below l' l) {r : Nat} (hr : r ∈ ptrsFrom next l') : r ∈ ptrsFrom next l := by
  cases next with
  | none => exact hr
  | some q =>
    rcases mem_cons.mp hr with rfl | hr
    · exact mem_cons_self
    · exact mem_cons_of_mem q ((Cursor.rest_sublist h.ptrs).tail.subset hr)

/-! ## Entries that stay -/

theorem mem_unlockAndPin_of_mem (q : Nat) (next : Option Nat) (hw : s.clientList.Wf s.fresh)
    (hd : d ∈ s.clientList) : ∃ b, d.setLocked b ∈ (unlockAndPin q next s).clientList := by
  have hset : ∀ {l : ClientList} (r : Nat) (b : Bool) {e : ClientInfo}, (l.map ptr).Nodup → e ∈ l →
      ∃ b', e.setLocked b' ∈ l.updateAt r (.setLocked b) := by
    intro l r b e hn he
    by_cases hr : e.ptr = r
    · exact ⟨b, (mem_updateFirst_key hn).mpr (.inr ⟨e, he, hr, rfl⟩)⟩
    · exact ⟨e.locked, (mem_updateFirst_key hn).mpr (.inl ⟨he, hr⟩)⟩
  obtain ⟨b, hd'⟩ := hset q false hw.ptrs hd
  cases next with
  | none => exact ⟨b, hd'⟩
  | some r =>
    have hn := (hw.updateAt q (ClientList.keepsKeys_setLocked false)).ptrs
    obtain ⟨b', hd''⟩ := hset r true hn hd'
    exact ⟨b', hd''⟩

theorem mem_selfList_of_ne (hw : l.Wf fresh) (hd : d ∈ l) (hne : d.ptr ≠ c.ptr) :
    d ∈ selfList c flags lastWriter l := by
  have hcached : ∃ l', l'.Wf fresh ∧ d ∈ l' ∧
      (if flags.invalidateBlocks then l.updateAt c.ptr (.setCached false) else l) = l' := by
    refine ⟨_, ?_, ?_, rfl⟩
    · split
      · exact hw.updateAt c.ptr (ClientList.keepsKeys_setCached false)
      · exact hw
    · split
      · exact (mem_updateFirst_key hw.ptrs).mpr (.inl ⟨hd, hne⟩)
      · exact hd
  obtain ⟨l', hw', hd', hl'⟩ := hcached
  simp only [selfList, hl']
  split
  · exact (mem_eraseP_key hw'.ptrs).mpr ⟨hd', hne⟩
  · exact hd'

theorem mem_replyList_of_ne (hw : l.Wf fresh) (hd : d ∈ l)
    (hne : d.clientID ≠ clientID) : d ∈ replyList clientID flags lastWriter l := by
  unfold replyList
  split
  · exact hd
  · split
    · exact (mem_eraseP_key hw.ids).mpr ⟨hd, hne⟩
    · split
      · exact (mem_updateFirst_key hw.ids).mpr (.inl ⟨hd, hne⟩)
      · exact hd

theorem mem_updateList {useFlags : UseFlags} {cacheable : Bool} (hw : s.clientList.Wf s.fresh) (hd : d ∈ (updateList clientID useFlags cacheable s).clientList) :
    (d ∈ s.clientList ∧ d.clientID ≠ clientID) ∨
      (d.clientID = clientID ∧ d.cached = cacheable ∧ ∃ use, d.use = use + UseCounts.ofFlags useFlags ∧
        (use = 0 ∨ ∃ c ∈ s.clientList, c.clientID = clientID ∧ use = c.use)) := by
  have hins := hw.findOrInsert clientID
  have hopen := hw.ioClientOpen clientID useFlags cacheable
  have hmem : ∀ a ∈ s.clientList.findOrInsert s.fresh clientID,
      a ∈ s.clientList ∨ a.clientID = clientID ∧ a.use = 0 := by
    intro a ha
    unfold ClientList.findOrInsert at ha
    split at ha
    · exact .inl ha
    · rcases mem_cons.mp ha with rfl | ha
      · exact .inr ⟨rfl, rfl⟩
      · exact .inl ha
  have hentry : ∀ a ∈ s.clientList.ioClientOpen s.fresh clientID useFlags cacheable,
      (a ∈ s.clientList ∧ a.clientID ≠ clientID) ∨
        (a.clientID = clientID ∧ a.cached = cacheable ∧ ∃ use, a.use = use + UseCounts.ofFlags useFlags ∧
          (use = 0 ∨ ∃ c ∈ s.clientList, c.clientID = clientID ∧ use = c.use)) := by
    intro a ha
    rcases (mem_updateFirst_key hins.ids).mp ha with ⟨ha, hne⟩ | ⟨b, hb, hid, rfl⟩
    · exact .inl ⟨(hmem a ha).resolve_right (fun h => hne h.1), hne⟩
    · refine .inr ⟨hid, rfl, b.use, rfl, ?_⟩
      rcases hmem b hb with hb | ⟨-, hz⟩
      · exact .inr ⟨b, hb, hid, rfl⟩
      · exact .inl hz
  rcases (mem_updateFirst_key hopen.ids).mp hd with ⟨hd, hne⟩ | ⟨a, ha, hid, rfl⟩
  · exact .inl ⟨(hentry d hd).elim (·.1) (fun h => absurd h.1 hne), hne⟩
  · exact .inr ((hentry a ha).resolve_left (fun h => h.2 hid))

end SpriteKernel.Fsconsist
