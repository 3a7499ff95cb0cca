import SpriteKernel.Fsconsist.Owner

/- Traversals that give the monitor up in their middle. A traversal holds on to the next entry by its address, and
   marks it `locked` so that nobody unlinks it; but a client whose entry is pinned may re-open the file with no use
   of it. -/
namespace SpriteKernel.Fsconsist

open List ClientInfo

open SpriteKernel KeyedList Transition

/-- `next` is on the list and pinned, the clients ahead have no message out, and the first entries still there are
    behind it, visited once, or ahead. -/
structure Suspended (loc : Locals) (next : Option Nat) (s : Info) : Prop where
  pinned : ∀ q, next = some q → ∃ d ∈ s.clientList, d.ptr = q ∧ d.locked = true
  quiet : ∀ d ∈ s.clientList, d.ptr ∈ ptrsFrom next s.clientList → ∀ m ∈ s.msgList, m.clientID ≠ d.clientID
  nodup : loc.visited.Nodup
  behind : ∀ r ∈ loc.visited, r ∉ ptrsFrom next s.clientList
  covered : ∀ r ∈ loc.began, r ∈ s.clientList.map ptr →
    r ∈ loc.visited ∨ r ∈ ptrsFrom next s.clientList
  old : ∀ r ∈ loc.began, r < s.fresh

/-- A traversal is through: what was on the list from beginning to end was visited exactly once. -/
def VisitedOnce (loc : Locals) : Prop :=
  ∀ r ∈ loc.began, r ∈ loc.present → loc.visited.count r = 1

/-- What a process's traversal should look like from where the process is. -/
def Pc.traversalOk (s : Info) : Pc → Prop
  | .inRpc (.scanning _ loc next) _ | .relock (.scanning _ loc next) => Suspended loc next s
  | .waitReplies (.ending _ loc) | .returned (.scan _) loc _ => VisitedOnce loc
  | _ => True

/-! ## Pins survive -/

/-- Pinned entries whose client has no message out stay, pinned. -/
def KeepsPins (s s' : Info) : Prop :=
  ∀ d ∈ s.clientList, d.locked = true → (∀ m ∈ s.msgList, m.clientID ≠ d.clientID) →
    ∃ d' ∈ s'.clientList, d'.ptr = d.ptr ∧ d'.locked = true

variable {s s' : Info}

theorem KeepsPins.of_list_eq (h : s'.clientList = s.clientList) : KeepsPins s s' :=
  fun d hd hl _ => ⟨d, h ▸ hd, rfl, hl⟩

theorem keepsPins_refl (s : Info) : KeepsPins s s := .of_list_eq rfl

variable {fresh : Nat} {l : ClientList} {clientID : HostId} {d : ClientInfo}

section
variable (hw : l.Wf fresh)
include hw

theorem pinned_updateClient {f : ClientInfo → ClientInfo} (hf : ∀ c, (f c).ptr = c.ptr ∧ (f c).locked = c.locked) (hd : d ∈ l) (hl : d.locked = true) :
    ∃ d' ∈ l.updateClient clientID f, d'.ptr = d.ptr ∧ d'.locked = true := by
  by_cases hc : d.clientID = clientID
  · exact ⟨f d, (mem_updateFirst_key hw.ids).mpr (.inr ⟨d, hd, hc, rfl⟩), (hf d).1, (hf d).2.trans hl⟩
  · exact ⟨d, (mem_updateFirst_key hw.ids).mpr (.inl ⟨hd, hc⟩), rfl, hl⟩

theorem pinned_removeClient (hc : ∀ c ∈ l, c.clientID = clientID → c.locked = false) (hd : d ∈ l)
    (hl : d.locked = true) : ∃ d' ∈ l.removeClient clientID, d'.ptr = d.ptr ∧ d'.locked = true := by
  refine ⟨d, (mem_eraseP_key hw.ids).mpr ⟨hd, fun hdc => ?_⟩, rfl, hl⟩
  rw [hc d hd hdc] at hl
  simp at hl

theorem unpinned_of_client {c : ClientInfo} (hc : l.client clientID = some c) (hl : c.locked = false) :
    ∀ d ∈ l, d.clientID = clientID → d.locked = false := by
  intro d hd hdc
  obtain ⟨hmem, hid⟩ := ClientList.mem_of_client hc
  rw [eq_of_key_eq hw.ids hd hmem (hdc.trans hid.symm)]
  exact hl

theorem pinned_ioClientClose {flags : UseFlags} {cache : Bool}
    {r : ClientList.CloseResult}
    (h : l.ioClientClose clientID flags cache = .ok r) (hd : d ∈ l)
    (hl : d.locked = true) : ∃ d' ∈ r.list, d'.ptr = d.ptr ∧ d'.locked = true := by
  rcases ioClientClose_spec h with ⟨-, rfl⟩ | ⟨c, hc, -, -, -, -, hlist⟩
  · exact ⟨d, hd, rfl, hl⟩
  · rcases hlist with ⟨hgone, hlist⟩ | ⟨-, hlist⟩
    · rw [hlist]
      have hcl : c.locked = false := by
        simp only [Bool.and_eq_true, Bool.not_eq_true'] at hgone
        exact hgone.2
      exact pinned_removeClient hw (unpinned_of_client hw hc hcl) hd hl
    · rw [hlist]
      refine pinned_updateClient hw ?_ hd hl
      exact fun _ => ⟨rfl, rfl⟩

theorem pinned_ioClientKill (clientID : HostId)
    (hd : d ∈ l) (hl : d.locked = true) :
    ∃ d' ∈ (l.ioClientKill clientID).2, d'.ptr = d.ptr ∧ d'.locked = true := by
  unfold ClientList.ioClientKill
  cases hc : l.client clientID with
  | none => exact ⟨d, hd, rfl, hl⟩
  | some c =>
    simp only
    split
    · refine pinned_updateClient hw ?_ hd hl
      exact fun _ => ⟨rfl, rfl⟩
    · next hcl => exact pinned_removeClient hw (unpinned_of_client hw hc (by simpa using hcl)) hd hl

theorem pinned_replyList {flags : CmdFlags} {lastWriter : Option HostId} (hd : d ∈ l)
    (hl : d.locked = true) (hne : d.clientID ≠ clientID) :
    ∃ d' ∈ replyList clientID flags lastWriter l, d'.ptr = d.ptr ∧ d'.locked = true := by
  unfold replyList
  split
  · exact ⟨d, hd, rfl, hl⟩
  · split
    · exact ⟨d, (mem_eraseP_key hw.ids).mpr ⟨hd, hne⟩, rfl, hl⟩
    · split
      · refine pinned_updateClient hw ?_ hd hl
        exact fun _ => ⟨rfl, rfl⟩
      · exact ⟨d, hd, rfl, hl⟩

end

theorem keepsPins_timeoutLoop (msgs : List ConsistMsgInfo) (hw : s.clientList.Wf s.fresh)
    (hd : d ∈ s.clientList) (hl : d.locked = true) :
    ∃ d' ∈ (timeoutLoop msgs s).clientList, d'.ptr = d.ptr ∧ d'.locked = true := by
  induction msgs generalizing s d with
  | nil => exact ⟨d, hd, rfl, hl⟩
  | cons m msgs ih =>
    obtain ⟨d₁, hd₁, hp₁, hl₁⟩ := pinned_ioClientKill hw m.clientID hd hl
    obtain ⟨d₂, hd₂, hp₂, hl₂⟩ := ih (s := { s with
      clientList := (s.clientList.ioClientKill m.clientID).2
      lastWriter := if s.lastWriter == some m.clientID then none else s.lastWriter
      msgList := msgs }) (hw.ioClientKill m.clientID) hd₁ hl₁
    exact ⟨d₂, hd₂, hp₂.trans hp₁, hl₂⟩

theorem keepsPins_processConsistReply (hw : s.clientList.Wf s.fresh) (clientID : HostId)
    (success : Bool) : KeepsPins s (processConsistReply clientID success s) := by
  intro d hd hl hq
  unfold processConsistReply
  cases hm : s.msgList.find? (fun m => m.clientID == clientID) with
  | none => exact ⟨d, hd, rfl, hl⟩
  | some msg =>
    have hmsg : msg.clientID = clientID := by simpa using List.find?_some hm
    -- the client that replies has a message out, so its entry is not pinned
    have hne : d.clientID ≠ clientID := fun h => hq msg (mem_of_find?_eq_some hm) (hmsg.trans h.symm)
    simp only
    split
    · exact ⟨d, hd, rfl, hl⟩
    · exact pinned_replyList hw hd hl hne

variable {use : UseCounts} {haveDirtyBlocks : Bool} {i : Info}

theorem keepsPins_reopenClient (hw : s.clientList.Wf s.fresh) (h : reopenClient clientID use haveDirtyBlocks s = .ok i) :
    KeepsPins s i := by
  intro d hd hl _
  unfold reopenClient at h
  simp only at h
  split at h
  · split at h
    · simp at h
    · cases h
      refine pinned_updateClient hw ?_ hd hl
      exact fun _ => ⟨rfl, rfl⟩
  · next hnone =>
    cases h
    have hins := hw.findOrInsert clientID
    rw [ClientList.findOrInsert, hnone] at hins
    refine pinned_updateClient hins ?_ (mem_cons_of_mem _ hd) hl
    exact fun _ => ⟨rfl, rfl⟩

variable {env : Env}

theorem Server.Acts.keepsPins {s : Server} {l : Label} (hw : s.info.clientList.Wf s.info.fresh) (h : Server.Acts env s l i) : KeepsPins s.info i := by
  intro d hd hl hq
  cases h with
  | close clientID flags found wasCached i h =>
    unfold Fsconsist.close at h
    split at h
    · simp at h
    · next r hr =>
      split at h
      · simp only [Except.ok.injEq, Prod.mk.injEq] at h
        exact ⟨d, h.2.2 ▸ hd, rfl, hl⟩
      · simp only [Except.ok.injEq, Prod.mk.injEq] at h
        rw [← h.2.2]
        exact pinned_ioClientClose hw hr hd hl
  | numClients =>
    unfold Fsconsist.numClients
    split
    · exact ⟨d, hd, rfl, hl⟩
    · exact ⟨d, mem_filter.mpr ⟨hd, by simp [inUse, hl]⟩, rfl, hl⟩
  | deleteLastWriter clientID =>
    unfold Fsconsist.deleteLastWriter
    split
    · exact ⟨d, hd, rfl, hl⟩
    · split
      · exact ⟨d, hd, rfl, hl⟩
      · next c hc =>
        split
        · split
          · exact ⟨d, hd, rfl, hl⟩
          · next hcl => exact pinned_removeClient hw (unpinned_of_client hw hc (by simpa using hcl)) hd hl
        · exact ⟨d, hd, rfl, hl⟩
  | kill clientID => exact pinned_ioClientKill hw clientID hd hl
  | ioClientKill clientID => exact pinned_ioClientKill hw clientID hd hl
  | consistReply clientID success => exact keepsPins_processConsistReply hw clientID success d hd hl hq
  | timeoutIntr => exact ⟨d, hd, rfl, hl⟩
  | consistTimeout => exact keepsPins_timeoutLoop _ hw hd hl
  | reopenClient clientID use haveDirtyBlocks i h => exact keepsPins_reopenClient hw h d hd hl hq

theorem Server.Returns.keepsPins {s : Server} {msg : ConsistMsgInfo} {status : RpcStatus} (hw : s.info.clientList.Wf s.info.fresh) (h : Server.Returns s msg status i) :
    KeepsPins s.info i := by
  cases h with
  | success => exact keepsPins_refl _
  | down => exact fun d hd hl _ => pinned_ioClientKill hw msg.clientID hd hl
  | other => exact .of_list_eq rfl

/-! ## A suspended traversal -/

variable {loc : Locals} {next : Option Nat} {q : Nat}

section
variable (h : Suspended loc next s)
include h

theorem Suspended.mem_ptrs (hq : next = some q) : q ∈ s.clientList.map ptr := by
  obtain ⟨d, hd, hdq, -⟩ := h.pinned q hq
  exact hdq ▸ mem_map_of_mem hd

theorem Suspended.suffix : ptrsFrom next s.clientList <:+ s.clientList.map ptr := by
  cases next with
  | none => exact nil_suffix
  | some q =>
    rw [ptrsFrom_eq_rest (h.mem_ptrs rfl)]
    exact Cursor.rest_suffix q _

theorem Suspended.pinned'
    (hk : KeepsPins s s') : ∀ q, next = some q → ∃ d ∈ s'.clientList, d.ptr = q ∧ d.locked = true := by
  intro q hq
  obtain ⟨d, hd, hdq, hl⟩ := h.pinned q hq
  obtain ⟨d', hd', hp', hl'⟩ := hk d hd hl (h.quiet d hd (by simp [hq, ptrsFrom, hdq]))
  exact ⟨d', hd', hp'.trans hdq, hl'⟩

theorem Suspended.interferes
    (hw : s.clientList.Wf s.fresh) (hi : Interferes s s') (hk : KeepsPins s s') :
    Suspended loc next s' := by
  have hpin := h.pinned' hk
  refine ⟨hpin, ?_, h.nodup, ?_, ?_, ?_⟩
  · intro d' hd' hp' m hm
    obtain ⟨d, hd, hdd⟩ := hi.list.exists_lowered hd'
    rw [hdd.clientID]
    exact h.quiet d hd (hdd.ptr ▸ mem_ptrsFrom_of_below hi.list hp') m (hi.msgs.subset hm)
  · exact fun r hr hr' => h.behind r hr (mem_ptrsFrom_of_below hi.list hr')
  · intro r hr hr'
    rcases h.covered r hr (hi.list.ptrs.subset hr') with hv | ha
    · exact .inl hv
    · refine .inr ?_
      cases next with
      | none => simp [ptrsFrom] at ha
      | some q =>
        obtain ⟨d, hd, hdq, -⟩ := hpin q rfl
        have hq' : q ∈ s'.clientList.map ptr := hdq ▸ mem_map_of_mem hd
        rw [ptrsFrom_eq_rest (h.mem_ptrs rfl)] at ha
        rw [ptrsFrom_eq_rest hq']
        exact Cursor.mem_rest_of_sublist hw.ptrs hi.list.ptrs hq' hr' ha
  · exact fun r hr => hi.fresh ▸ h.old r hr

end

theorem reopenClient_list (h : reopenClient clientID use haveDirtyBlocks s = .ok i) :
    i.msgList = s.msgList ∧ s.fresh ≤ i.fresh ∧
      (i.clientList.map ptr = s.clientList.map ptr ∨
        i.clientList.map ptr = s.fresh :: s.clientList.map ptr) ∧
      ∀ d ∈ i.clientList, d.ptr = s.fresh ∨ ∃ c ∈ s.clientList, c.ptr = d.ptr ∧ c.clientID = d.clientID := by
  have hkeys : ClientList.KeepsKeys (fun c => (c.setUse use).setCached haveDirtyBlocks) :=
    fun _ => ⟨rfl, rfl⟩
  have hmem : ∀ l : ClientList, ∀ d ∈ l.updateClient clientID (fun c => (c.setUse use).setCached haveDirtyBlocks),
      ∃ c ∈ l, c.ptr = d.ptr ∧ c.clientID = d.clientID := by
    intro l d hd
    rcases mem_of_mem_updateFirst hd with hd | ⟨c, hc, -, rfl⟩
    · exact ⟨d, hd, rfl, rfl⟩
    · exact ⟨c, hc, rfl, rfl⟩
  unfold reopenClient at h
  simp only at h
  split at h
  · split at h
    · simp at h
    · cases h
      exact ⟨rfl, Nat.le_refl _, .inl (ClientList.map_ptr_updateClient hkeys _),
        fun d hd => .inr (hmem _ d hd)⟩
  · cases h
    refine ⟨rfl, Nat.le_succ _, .inr (ClientList.map_ptr_updateClient hkeys _), fun d hd => ?_⟩
    obtain ⟨c, hc, hp, hid⟩ := hmem _ d hd
    rcases mem_cons.mp hc with rfl | hc
    · exact .inl hp.symm
    · exact .inr ⟨c, hc, hp, hid⟩

theorem Suspended.reopenClient (h : Suspended loc next s) (hw : s.clientList.Wf s.fresh)
    (hr : reopenClient clientID use haveDirtyBlocks s = .ok i) : Suspended loc next i := by
  obtain ⟨hmsgs, hfresh, hptrs, hent⟩ := reopenClient_list hr
  have hold : ∀ r ∈ s.clientList.map ptr, r ≠ s.fresh := by
    intro r hr hrf
    obtain ⟨c, hc, hcr⟩ := mem_map.mp hr
    exact absurd (hcr.trans hrf) (Nat.ne_of_lt (hw.old c hc))
  -- a new entry is behind every traversal
  have hahead : ptrsFrom next i.clientList = ptrsFrom next s.clientList := by
    cases next with
    | none => rfl
    | some q =>
      have hq := h.mem_ptrs rfl
      simp only [ptrsFrom]
      rcases hptrs with hp | hp
      · rw [hp]
      · rw [hp, dropWhile_cons_of_pos (by simpa using (hold q hq).symm)]
  refine ⟨h.pinned' (keepsPins_reopenClient hw hr), ?_, h.nodup, ?_, ?_, ?_⟩
  · intro d hd hp m hm
    rw [hahead] at hp
    rcases hent d hd with hf | ⟨c, hc, hcp, hcid⟩
    · exact absurd hf (hold d.ptr (h.suffix.subset hp))
    · exact hcid ▸ h.quiet c hc (hcp ▸ hp) m (hmsgs ▸ hm)
  · exact fun r hr => hahead ▸ h.behind r hr
  · intro r hrb hri
    rw [hahead]
    refine h.covered r hrb ?_
    rcases hptrs with hp | hp
    · exact hp ▸ hri
    · rw [hp] at hri
      refine (mem_cons.mp hri).resolve_left (fun hrf => ?_)
      exact absurd hrf (Nat.ne_of_lt (h.old r hrb))
  · exact fun r hr => Nat.lt_of_lt_of_le (h.old r hr) hfresh

/-! ## A running traversal -/

/-- A traversal inside the monitor, with `ptrs` ahead of it. -/
structure Walking (loc : Locals) (ptrs : List Nat) (s : Info) : Prop where
  wf : s.clientList.Wf s.fresh
  suffix : ptrs <:+ s.clientList.map ptr
  quiet : ∀ d ∈ s.clientList, d.ptr ∈ ptrs → ∀ m ∈ s.msgList, m.clientID ≠ d.clientID
  nodup : loc.visited.Nodup
  behind : ∀ r ∈ loc.visited, r ∉ ptrs
  covered : ∀ r ∈ loc.began, r ∈ s.clientList.map ptr → r ∈ loc.visited ∨ r ∈ ptrs
  old : ∀ r ∈ loc.began, r < s.fresh

theorem Suspended.walking (h : Suspended loc next s)
    (hw : s.clientList.Wf s.fresh) : Walking loc (ptrsFrom next s.clientList) s :=
  ⟨hw, h.suffix, h.quiet, h.nodup, h.behind, h.covered, h.old⟩

variable {rest : List Nat} {c : ClientInfo}

section
variable (h : Walking loc (q :: rest) s)
include h

theorem Walking.not_mem_rest : q ∉ rest :=
  Cursor.nodup_of_suffix h.wf.ptrs h.suffix

theorem Walking.visited (hc : c.ptr = q) :
    (loc.visit c).visited.Nodup ∧ (∀ r ∈ (loc.visit c).visited, r ∉ rest) ∧
      ∀ r ∈ (loc.visit c).began, r ∈ s.clientList.map ptr →
        r ∈ (loc.visit c).visited ∨ r ∈ rest := by
  have hq : q ∉ loc.visited := fun hv => h.behind q hv mem_cons_self
  simp only [Locals.visit, hc]
  refine ⟨?_, ?_, ?_⟩
  · refine nodup_append.mpr ⟨h.nodup, by simp, fun a ha b hb => ?_⟩
    rw [mem_singleton] at hb
    rintro rfl
    exact hq (hb ▸ ha)
  · intro r hr hrr
    rcases mem_append.mp hr with hr | hr
    · exact h.behind r hr (mem_cons_of_mem q hrr)
    · rw [mem_singleton] at hr
      exact h.not_mem_rest (hr ▸ hrr)
  · intro r hr hri
    rcases h.covered r hr hri with hv | ha
    · exact .inl (mem_append_left _ hv)
    · rcases mem_cons.mp ha with rfl | ha
      · exact .inl (by simp)
      · exact .inr ha

theorem Walking.unlockAndPin (hc : c.ptr = q) :
    Walking (loc.visit c) rest (unlockAndPin q rest.head? s) := by
  obtain ⟨hnodup, hbehind, hcovered⟩ := h.visited hc
  have hmap := map_ptr_unlockAndPin q rest.head? s
  refine ⟨wf_unlockAndPin h.wf q _, ?_, ?_, hnodup, hbehind, ?_, h.old⟩
  · rw [hmap]
    exact (suffix_cons q rest).trans h.suffix
  · intro d hd hp m hm
    obtain ⟨d₀, hd₀, b, rfl⟩ := mem_unlockAndPin hd
    exact h.quiet d₀ hd₀ (mem_cons_of_mem q hp) m hm
  · rw [hmap]
    exact hcovered

end

theorem pinned_unlockAndPin {r : Nat} (hw : s.clientList.Wf s.fresh)
    (hr : r ∈ s.clientList.map ptr) :
    ∃ d ∈ (unlockAndPin q (some r) s).clientList, d.ptr = r ∧ d.locked = true := by
  have hw' := hw.updateAt q (ClientList.keepsKeys_setLocked false)
  have hmap : (s.clientList.updateAt q (.setLocked false)).map ptr =
      s.clientList.map ptr :=
    ClientList.map_ptr_updateAt (ClientList.keepsKeys_setLocked false) _
  rw [← hmap] at hr
  obtain ⟨d, hd, hdr⟩ := mem_map.mp hr
  exact ⟨d.setLocked true, (mem_updateFirst_key hw'.ptrs).mpr (.inr ⟨d, hd, hdr, rfl⟩), hdr, rfl⟩

theorem Walking.commandSelf (p : Pid)
    (h : Walking loc (q :: rest) s) (hc : c.ptr = q) (flags : CmdFlags) : Walking (loc.visit c) rest
      (commandSelf c flags (logCommand p c flags (Fsconsist.unlockAndPin q rest.head? s))) := by
  have hj := h.unlockAndPin hc
  have hbelow := below_commandSelf c flags (logCommand p c flags (Fsconsist.unlockAndPin q rest.head? s))
  refine ⟨wf_commandSelf hj.wf p c flags, ?_, ?_, hj.nodup, hj.behind, ?_, hj.old⟩
  · refine suffix_selfList hj.wf.ptrs ?_
    rw [hc]
    exact (map_ptr_unlockAndPin q rest.head? s).symm ▸ h.suffix
  · intro d hd hp m hm
    obtain ⟨d₀, hd₀, hdd⟩ := hbelow.exists_lowered hd
    exact hdd.clientID ▸ hj.quiet d₀ hd₀ (hdd.ptr ▸ hp) m hm
  · exact fun r hr hri => hj.covered r hr (hbelow.ptrs.subset hri)

theorem Walking.commandPost (p : Pid)
    (h : Walking loc (q :: rest) s) (hmem : c ∈ s.clientList) (hc : c.ptr = q) (flags : CmdFlags) :
    Walking (loc.visit c) rest
      (commandPost c flags (logCommand p c flags (Fsconsist.unlockAndPin q rest.head? s))) := by
  have hj := h.unlockAndPin hc
  refine ⟨hj.wf.mono (Nat.le_succ _), hj.suffix, ?_, hj.nodup, hj.behind, hj.covered,
    fun r hr => Nat.lt_succ_of_lt (hj.old r hr)⟩
  intro d hd hp m hm
  rcases mem_append.mp hm with hm | hm
  · exact hj.quiet d hd hp m hm
  · -- the new message is for the client at `q`, which is behind
    rw [mem_singleton] at hm
    obtain ⟨d₀, hd₀, b, rfl⟩ := mem_unlockAndPin hd
    intro hmd
    rw [hm] at hmd
    obtain rfl := eq_of_key_eq h.wf.ids hmem hd₀ hmd
    exact h.not_mem_rest (hc ▸ hp)

/-- A traversal that gives the monitor up with its next entry pinned. -/
theorem Walking.suspended (h : Walking loc rest s)
    (hpin : ∀ r, rest.head? = some r → ∃ d ∈ s.clientList, d.ptr = r ∧ d.locked = true) :
    Suspended loc rest.head? s := by
  have hahead := ptrsFrom_of_suffix h.wf.ptrs h.suffix
  refine ⟨hpin, ?_, h.nodup, ?_, ?_, h.old⟩
  · exact fun d hd hp => h.quiet d hd (hahead ▸ hp)
  · exact fun r hr hra => h.behind r hr (hahead ▸ hra)
  · exact fun r hr hri => (h.covered r hr hri).imp id (fun ha => hahead.symm ▸ ha)

variable {p : Pid} {c : Pc} {ptrs : List Nat}

theorem traversalOk_traverse {a : Scan} (hj : Walking loc ptrs s) (h : traverse env p a loc ptrs s = .ok (i, c)) :
    c.traversalOk i := by
  refine traverse_rule Walking (fun i c => c.traversalOk i) ?_ ?_ ?_ ?_ hj h
  · intro loc q rest s c hj hf _
    exact hj.unlockAndPin (find_ptr hf).2
  · intro loc q rest s c flags hj hf _ _
    exact hj.commandSelf p (find_ptr hf).2 flags
  · intro loc q rest s c flags hj hf _ _ _
    obtain ⟨hmem, hq⟩ := find_ptr hf
    refine (hj.commandPost p hmem hq flags).suspended (fun r hr => ?_)
    have hr' : r ∈ s.clientList.map ptr :=
      hj.suffix.subset (mem_cons_of_mem q (mem_of_mem_head? hr))
    rw [hr]
    exact pinned_unlockAndPin hj.wf hr'
  · intro loc s hj
    have honce : ∀ loc', loc'.began = loc.began → loc'.visited = loc.visited →
        loc'.present = s.clientList.map ptr → VisitedOnce loc' := by
      intro loc' hb hv hp r hr hrp
      rw [hv]
      refine count_eq_one_of_mem hj.nodup ?_
      rcases hj.covered r (hb ▸ hr) (hp ▸ hrp) with h | h
      · exact h
      · simp at h
    have hend : ∀ a loc' s', VisitedOnce loc' →
        (endConsistency a loc' s').2.traversalOk (endConsistency a loc' s').1 := by
      intro a loc' s' ho
      unfold endConsistency
      split <;> exact ho
    cases a with
    | fileConsistency clientID useFlags => exact hend _ _ _ (honce _ rfl rfl rfl)
    | reopenConsistency clientID useFlags => exact hend _ _ _ (honce _ rfl rfl rfl)
    | migrateConsistency dst useFlags =>
      simp only [afterTraversal]
      split <;> exact hend _ _ _ (honce _ rfl rfl rfl)
    | getClientAttrs clientID => exact hend _ _ _ (honce _ rfl rfl rfl)

/-! ## The stretches -/

/-- The process is in one of the loops, or back from one. -/
def Pc.looping : Pc → Bool
  | .inRpc (.loop _) _ | .relock (.loop _) | .waitReplies (.loop _) => true
  | .returned (.clientRemoveCallback _) _ _ | .returned (.fetchDirtyBlocks _) _ _ => true
  | _ => false

theorem traversalOk_of_looping (h : c.looping = true) (i : Info) : c.traversalOk i := by
  unfold Pc.looping at h
  split at h <;> simp_all [Pc.traversalOk]

theorem looping_removeLoop (h : removeLoop env p clientID l s = .ok (i, c)) : c.looping = true := by
  induction l generalizing s with
  | nil =>
    simp only [removeLoop, Except.ok.injEq, Prod.mk.injEq] at h
    rw [← h.2]
    rfl
  | cons d l ih =>
    unfold removeLoop at h
    split at h
    · split at h
      · simp at h
      · simp only [Except.ok.injEq, Prod.mk.injEq] at h
        rw [← h.2]
        rfl
      · split at h
        · exact ih h
        · simp only [waitInLoop, Except.ok.injEq, Prod.mk.injEq] at h
          rw [← h.2]
          rfl
    · exact ih h

theorem looping_fetchLoop {invalidate : Bool} (h : fetchLoop env p invalidate ptrs s = .ok (i, c)) : c.looping = true := by
  induction ptrs generalizing s with
  | nil =>
    simp only [fetchLoop, Except.ok.injEq, Prod.mk.injEq] at h
    rw [← h.2]
    rfl
  | cons q rest ih =>
    unfold fetchLoop at h
    split at h
    · simp at h
    · simp only at h
      split at h
      · simp at h
      · split at h
        · exact ih h
        · split at h
          · simp at h
          · simp only [Except.ok.injEq, Prod.mk.injEq] at h
            rw [← h.2]
            rfl
          · split at h
            · exact ih h
            · simp only [waitInLoop, Except.ok.injEq, Prod.mk.injEq] at h
              rw [← h.2]
              rfl

theorem looping_continueLoop {l : Loop} (h : continueLoop env p l s = .ok (i, c)) : c.looping = true := by
  cases l with
  | removing clientID cur => exact looping_removeLoop h
  | fetching invalidate next => exact looping_fetchLoop h

section
variable (hw : s.clientList.Wf s.fresh)
include hw

theorem walking_start {flags : ConsistFlags} {cacheable : Bool}
    (hm : s.msgList = []) :
    Walking { cacheable := cacheable, began := s.clientList.map ptr }
      (s.clientList.map ptr) { s with flags := flags } := by
  refine ⟨hw, suffix_refl _, ?_, nodup_nil, ?_, ?_, ?_⟩
  · simp [hm]
  · simp
  · exact fun r hr _ => .inr hr
  · intro r hr
    obtain ⟨d, hd, rfl⟩ := mem_map.mp hr
    exact hw.old d hd

theorem traversalOk_start {a : Action} (hm : s.msgList = []) (h : start env p a s = .ok (i, c)) :
    c.traversalOk i := by
  unfold start at h
  cases a with
  | scan a => exact traversalOk_traverse (walking_start hw hm) h
  | clientRemoveCallback clientID => exact traversalOk_of_looping (looping_removeLoop h) i
  | fetchDirtyBlocks invalidate =>
    simp only at h
    split at h
    · simp only [Except.ok.injEq, Prod.mk.injEq] at h
      rw [← h.2]
      trivial
    · exact traversalOk_of_looping (looping_fetchLoop h) i

theorem traversalOk_resume {f : CallFrame} (hf : (Pc.relock f).traversalOk s)
    (h : resume env p f s = .ok (i, c)) : c.traversalOk i := by
  cases f with
  | scanning a loc next => exact traversalOk_traverse (Suspended.walking hf hw) h
  | loop l =>
    simp only [resume] at h
    split at h
    · exact traversalOk_of_looping (looping_continueLoop h) i
    · simp only [waitInLoop, Except.ok.injEq, Prod.mk.injEq] at h
      rw [← h.2]
      trivial

end

theorem traversalOk_endWait {f : EndFrame} (hf : (Pc.waitReplies f).traversalOk s) (h : endWait env p f s = .ok (i, c)) : c.traversalOk i := by
  cases f with
  | ending a loc =>
    simp only [endWait, Except.ok.injEq, Prod.mk.injEq] at h
    rw [← h.2]
    exact hf
  | loop l => exact traversalOk_of_looping (looping_continueLoop h) i

namespace Server

/-- The step unlinks no pinned entry: it is no re-open, with no use left, of a pinned client. -/
def SparesPinned (s : Server) (l : Label) : Prop :=
  ∀ p clientID use swap cacheable, l = .call p (.reopenConsistency clientID use swap cacheable) →
    reopenFlags use swap cacheable = {} → ∀ d ∈ s.info.clientList, d.clientID = clientID → d.locked = false

variable {env : Env} {s : Server} {i : Info} {c : Pc}

theorem keepsPins_enter {r : Request} (hw : s.info.clientList.Wf s.info.fresh) (hin : s.info.flags.inProgress = true)
    (hc : SparesPinned s (.call p r)) (h : r.enter env p s.info = .ok (i, c)) :
    KeepsPins s.info i := by
  rcases enter_inProgress hin h with rfl | ⟨src, dst, useFlags, res, rfl, hres, rfl⟩ |
    ⟨clientID, use, swap, cacheable, rfl, hz, rfl⟩
  · exact keepsPins_refl _
  · exact fun d hd hl _ => pinned_ioClientClose hw hres hd hl
  · exact fun d hd hl _ => pinned_removeClient hw (hc p clientID use swap cacheable rfl hz) hd hl

/-- Every traversal is as it should be. -/
def TraversalsOk (s : Server) : Prop := ∀ p, (s.pc p).traversalOk s.info

variable {i' : Info}

/-- Whoever owns no flag has no traversal that depends on the list. -/
theorem traversalOk_of_inactive (ha : c.active = false) (h : c.traversalOk i) : c.traversalOk i' := by
  cases c with
  | idle => trivial
  | waitDone a => trivial
  | inRpc f msg => simp [Pc.active] at ha
  | relock f => simp [Pc.active] at ha
  | waitReplies f => simp [Pc.active] at ha
  | returned a loc status => cases a <;> exact h

theorem traversalOk_of_suspended (hs : ∀ loc next, Suspended loc next i → Suspended loc next i') (h : c.traversalOk i) :
    c.traversalOk i' := by
  cases c with
  | idle => trivial
  | waitDone a => trivial
  | inRpc f msg =>
    cases f with
    | scanning a loc next => exact hs loc next h
    | loop l => trivial
  | relock f =>
    cases f with
    | scanning a loc next => exact hs loc next h
    | loop l => trivial
  | waitReplies f => cases f <;> exact h
  | returned a loc status => cases a <;> exact h

theorem traversalOk_interferes (hw : i.clientList.Wf i.fresh)
    (hi : Interferes i i') (hk : KeepsPins i i') (h : c.traversalOk i) : c.traversalOk i' :=
  traversalOk_of_suspended (fun _ _ h => h.interferes hw hi hk) h

theorem traversalOk_reopenClient (hw : i.clientList.Wf i.fresh)
    (hr : Fsconsist.reopenClient clientID use haveDirtyBlocks i = .ok i') (h : c.traversalOk i) :
    c.traversalOk i' :=
  traversalOk_of_suspended (fun _ _ h => h.reopenClient hw hr) h

variable {l : Label} {t : Server}

theorem traversalOk_runs (hb : Base s)
    (hp : (s.pc p).traversalOk s.info) (hr : Runs env s p l (.ok (i, c))) : c.traversalOk i := by
  generalize hst : (Except.ok (i, c) : Stretch) = st at hr
  cases hr with
  | enter r hfree =>
    rcases enter_cases hb.wf hst.symm with ⟨hc, hi⟩ | ⟨a, s', hclear, hi, hs⟩
    · cases hc with
      | waitDone a => trivial
      | unused a t => simp [Pc.traversalOk, VisitedOnce]
    · refine traversalOk_start (hi.wf hb.wf) ?_ hs
      exact hi.msgs_nil (hb.quiet hclear)
  | wake a hpc hclear => exact traversalOk_start hb.wf (hb.quiet hclear) hst.symm
  | relock f hpc => exact traversalOk_resume hb.wf (hpc ▸ hp) hst.symm
  | repliesIn f hpc hempty => exact traversalOk_endWait (hpc ▸ hp) hst.symm

theorem traversalOk_step {q : Pid} (hb : Base s)
    (hq : (s.pc q).traversalOk s.info) (hc : SparesPinned s l) (hs : Server.step env s l = some t) :
    (t.pc q).traversalOk t.info := by
  obtain ⟨-, ⟨e, -, rfl⟩ | ⟨p, i, c, hr, rfl⟩ | ⟨p, f, msg, status, i, -, hpc, hr, rfl⟩ | ⟨i, n, ha, rfl⟩⟩ :=
    step_cases hs
  · exact hq
  · by_cases hqp : q = p
    · subst hqp
      simpa using traversalOk_runs hb hq hr
    · rw [put_pc_of_ne s hqp, put_info]
      by_cases ha : (s.pc q).active = true
      · have hin := hb.flag q ha
        rcases hb.runs_cases hr with ⟨-, -, hi⟩ | ⟨hp, -⟩
        · generalize hst : (Except.ok (i, c) : Stretch) = st at hr
          cases hr with
          | enter r hfree =>
            exact traversalOk_interferes hb.wf hi (keepsPins_enter hb.wf hin hc hst.symm) hq
          | wake a hpc hclear => simp [hclear] at hin
          | relock f hpc => exact absurd (hb.unique q p ha (by rw [hpc]; rfl)) hqp
          | repliesIn f hpc hempty => exact absurd (hb.unique q p ha (by rw [hpc]; rfl)) hqp
        · rw [hb.others_inactive hp hqp] at ha
          simp at ha
      · exact traversalOk_of_inactive (by simpa using ha) hq
  · have hq' := traversalOk_interferes hb.wf (hr.interferes hb.wf) (hr.keepsPins hb.wf) hq
    by_cases hqp : q = p
    · subst hqp
      rw [hpc] at hq'
      rw [put_pc_self, put_info]
      cases f <;> exact hq'
    · rw [put_pc_of_ne s hqp, put_info]
      exact hq'
  · by_cases hl : l.reopens = true
    · cases ha with
      | reopenClient clientID use haveDirtyBlocks i hi => exact traversalOk_reopenClient hb.wf hi hq
      | _ => simp [Label.reopens] at hl
    · have hi := ha.interferes hb.wf (by simpa using hl)
      exact traversalOk_interferes hb.wf hi (ha.keepsPins hb.wf) hq

theorem TraversalsOk.step (hb : Base s) (ht : TraversalsOk s)
    (hc : SparesPinned s l) (hs : Server.step env s l = some t) : TraversalsOk t :=
  fun q => traversalOk_step hb (ht q) hc hs

theorem traversalsOk_of_run (h : Run (Server.step env) SparesPinned {} s) : TraversalsOk s :=
  (h.invariant (I := fun s => Base s ∧ TraversalsOk s)
    (fun _ _ _ hi hc hs => ⟨hi.1.step hs, hi.2.step hi.1 hc hs⟩) ⟨base_init, fun _ => trivial⟩).2

end Server

/-! ## Traversals over whole runs -/

/-- The entry that a suspended traversal has saved stays listed, and every entry that stays is visited once. -/
theorem traversal_of_run (env : Env) {s : Server} (h : Run (Server.step env) Server.SparesPinned {} s) :
    (∀ p a loc q, ((∃ msg, s.pc p = .inRpc (.scanning a loc (some q)) msg) ∨
        s.pc p = .relock (.scanning a loc (some q))) →
      ∃ d ∈ s.info.clientList, d.ptr = q ∧ d.locked = true) ∧
    ∀ p a loc, (s.pc p = .waitReplies (.ending a loc) ∨ ∃ status, s.pc p = .returned (.scan a) loc status) →
      ∀ r ∈ loc.began, r ∈ loc.present → loc.visited.count r = 1 := by
  have ht := Server.traversalsOk_of_run h
  refine ⟨fun p a loc q hpc => ?_, fun p a loc hpc => ?_⟩
  · have hp := ht p
    rcases hpc with ⟨msg, hpc⟩ | hpc
    · rw [hpc] at hp
      exact Suspended.pinned hp q rfl
    · rw [hpc] at hp
      exact Suspended.pinned hp q rfl
  · have hp := ht p
    rcases hpc with hpc | ⟨status, hpc⟩
    · rw [hpc] at hp
      exact hp
    · rw [hpc] at hp
      exact hp

/-- Hosts 2 and 3 read, host 4 opens for writing: host 3 is called back, host 2's entry saved, and host 2 closes. -/
def closeUnderTraversal : List Label :=
  [.call 0 (.fileConsistency 2 { read := true }), .call 0 (.fileConsistency 3 { read := true }),
    .call 1 (.fileConsistency 4 { write := true }), .close 2 { read := true }]

theorem closed_entry_stays :
    ∃ s, Run (Server.step fileServer) Server.SparesPinned {} s ∧
      ∃ a loc msg, s.pc 1 = .inRpc (.scanning a loc (some 0)) msg ∧
        ∃ d ∈ s.info.clientList, d.ptr = 0 ∧ d.locked = true := by
  have hrun : ∃ s, exec (Server.step fileServer) {} closeUnderTraversal = some s ∧
      ∃ a loc msg, s.pc 1 = .inRpc (.scanning a loc (some 0)) msg := ⟨_, rfl, _, _, _, rfl⟩
  obtain ⟨s, he, a, loc, msg, hpc⟩ := hrun
  have h := run_of_exec (A := fun l => ∀ p c u w d, l ≠ .call p (.reopenConsistency c u w d))
    closeUnderTraversal {} s (by simp [closeUnderTraversal]) he
  have h' : Run (Server.step fileServer) Server.SparesPinned {} s :=
    h.mono (fun s l hl p c u w d hc => absurd hc (hl p c u w d))
  exact ⟨s, h', a, loc, msg, hpc, (traversal_of_run fileServer h').1 1 a loc 0 (.inl ⟨msg, hpc⟩)⟩

/-- Host 2 re-opens the file it no longer uses, and its entry is unlinked under the traversal. -/
theorem pinned_entry_unlinked :
    (∃ s, exec (Server.step fileServer) {}
        (closeUnderTraversal ++ [.reopenClient 2 0 false, .call 2 (.reopenConsistency 2 0 false false)]) =
          some s ∧
        (∃ a loc msg, s.pc 1 = .inRpc (.scanning a loc (some 0)) msg) ∧ ∀ d ∈ s.info.clientList, d.ptr ≠ 0) ∧
      ∃ s, exec (Server.step fileServer) {}
        (closeUnderTraversal ++ [.reopenClient 2 0 false, .call 2 (.reopenConsistency 2 0 false false),
          .rpcReturn 1 .success, .relock 1]) = some s ∧ s.panic = some .danglingPointer :=
  ⟨⟨_, rfl, ⟨_, _, _, rfl⟩, by decide⟩, _, rfl, by decide⟩

end SpriteKernel.Fsconsist
