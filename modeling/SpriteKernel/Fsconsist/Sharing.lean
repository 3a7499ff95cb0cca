import SpriteKernel.Fsconsist.Pins

/- What the protocol is for: nobody reads from its own cache a file that somebody else is writing. Between two
   consistency actions a client that writes leaves no other with cached blocks it uses, and does not cache the file
   where another has it open. -/
namespace SpriteKernel.Fsconsist

open List

open SpriteKernel KeyedList Transition

def ClientInfo.Caches (c : ClientInfo) : Prop := 0 < c.use.ref ∧ c.cached = true

/-- A writer leaves no other client caching, and does not cache what another client
has open. -/
def Safe (l : ClientList) : Prop :=
  ∀ c ∈ l, 0 < c.use.write → ∀ d ∈ l, d.clientID ≠ c.clientID →
    ¬ d.Caches ∧ (0 < d.use.ref → ¬ c.Caches)

def WritesCounted (l : ClientList) : Prop := ∀ c ∈ l, 0 ≤ c.use.write

/-- The file can be cached by `clientID` once it has opened it with these flags. -/
def Admits (clientID : HostId) (useFlags : UseFlags) (l : ClientList) : Prop :=
  ∀ d ∈ l, d.clientID ≠ clientID → ¬ 0 < d.use.write ∧
    (useFlags.write = true ∨ (∃ c ∈ l, c.clientID = clientID ∧ 0 < c.use.write) → ¬ 0 < d.use.ref)

/-- The next reply of the client is to a command with this bit. -/
def Owes (bit : CmdFlags → Bool) (clientID : HostId) (msgs : List ConsistMsgInfo) : Prop :=
  ∃ m, msgs.find? (fun m => m.clientID == clientID) = some m ∧ bit m.flags = true

/-- The client's reply will say that it has stopped caching. -/
abbrev Invalidating (clientID : HostId) (msgs : List ConsistMsgInfo) : Prop :=
  Owes CmdFlags.invalidateBlocks clientID msgs

/-- Every other client that caches is still to be visited, or has been told to
stop. -/
def Told (clientID : HostId) (ptrs : List Nat) (s : Info) : Prop :=
  ∀ d ∈ s.clientList, d.clientID ≠ clientID → d.Caches →
    d.ptr ∈ ptrs ∨ Invalidating d.clientID s.msgList

/-- An open whose traversal has `ptrs` ahead. -/
structure Opening (clientID : HostId) (useFlags : UseFlags) (cacheable : Bool) (ptrs : List Nat)
    (s : Info) : Prop where
  counted : WritesCounted s.clientList
  admits : cacheable = true → Admits clientID useFlags s.clientList
  told : cacheable = false → Told clientID ptrs s

/-- An open that waits for the replies. -/
structure Settling (s : Info) : Prop where
  counted : WritesCounted s.clientList
  safe : Safe s.clientList ∨ ∀ d ∈ s.clientList, d.Caches → Invalidating d.clientID s.msgList

/-- What holds of the file from where a process is, if all there is are opens. -/
def Pc.sharingOk (s : Info) : Pc → Prop
  | .idle | .returned _ _ _ => True
  | .waitDone a => ∃ clientID useFlags, a = .scan (.fileConsistency clientID useFlags)
  | .inRpc (.scanning (.fileConsistency clientID useFlags) loc next) _
  | .relock (.scanning (.fileConsistency clientID useFlags) loc next) =>
    Opening clientID useFlags loc.cacheable (ptrsFrom next s.clientList) s
  | .waitReplies (.ending (.fileConsistency _ _) _) => Settling s
  | _ => False

/-! ## Lowering the list -/

/-- Every entry of `l'` is one of `l`, lowered, pinned or not. -/
def Fades (l' l : ClientList) : Prop := ∀ d ∈ l', ∃ c ∈ l, ∃ b, Lowered d (c.setLocked b)

variable {l' l : ClientList}

theorem fades_of_below (h : Below l' l) : Fades l' l := by
  intro d hd
  obtain ⟨c, hc, hdc⟩ := h.exists_lowered hd
  exact ⟨c, hc, c.locked, hdc⟩

theorem fades_unlockAndPin (q : Nat) (next : Option Nat) (s : Info) :
    Fades (unlockAndPin q next s).clientList s.clientList := by
  intro d hd
  obtain ⟨c, hc, b, rfl⟩ := mem_unlockAndPin hd
  exact ⟨c, hc, b, Lowered.refl _⟩

theorem Fades.trans_below {l'' : ClientList} (h : Fades l' l) (hb : Below l'' l') : Fades l'' l := by
  intro d hd
  obtain ⟨c, hc, hdc⟩ := hb.exists_lowered hd
  obtain ⟨a, ha, b, hca⟩ := h c hc
  exact ⟨a, ha, b, IsTrans.trans _ _ _ hdc hca⟩

variable {d c : ClientInfo}

theorem Lowered.caches {b : Bool} (h : Lowered d (c.setLocked b)) (hd : d.Caches) : c.Caches :=
  ⟨h.ref hd.1, h.cached hd.2⟩

theorem Safe.below (h : Safe l) (hb : Below l' l) : Safe l' := by
  intro c' hc' hw d' hd' hne
  obtain ⟨c, hc, b, hcc⟩ := fades_of_below hb c' hc'
  obtain ⟨d, hd, b', hdd⟩ := fades_of_below hb d' hd'
  have hcd := h c hc (hcc.write hw) d hd (fun hid => hne (hdd.clientID.trans (hid.trans hcc.clientID.symm)))
  exact ⟨fun hx => hcd.1 (hdd.caches hx), fun hr hx => hcd.2 (hdd.ref hr) (hcc.caches hx)⟩

theorem WritesCounted.fades (h : WritesCounted l) (hf : Fades l' l) : WritesCounted l' := by
  intro c' hc'
  obtain ⟨c, hc, b, hcc⟩ := hf c' hc'
  exact hcc.write_nonneg (h c hc)

variable {clientID : HostId} {useFlags : UseFlags}

theorem Admits.fades (h : Admits clientID useFlags l) (hf : Fades l' l) : Admits clientID useFlags l' := by
  intro d' hd' hne
  obtain ⟨d, hd, b, hdd⟩ := hf d' hd'
  have hdx := h d hd (fun hid => hne (hdd.clientID.trans hid))
  refine ⟨fun hw => hdx.1 (hdd.write hw), fun hwrites hr => hdx.2 ?_ (hdd.ref hr)⟩
  rcases hwrites with hwf | ⟨c', hc', hid, hw⟩
  · exact .inl hwf
  · obtain ⟨c, hc, b', hcc⟩ := hf c' hc'
    exact .inr ⟨c, hc, hcc.clientID.symm.trans hid, hcc.write hw⟩

/-! ## Orders on their way -/

/-- A client that still caches has not lost its order. -/
def KeepsOrders (s s' : Info) : Prop :=
  ∀ d' ∈ s'.clientList, d'.Caches → Invalidating d'.clientID s.msgList → Invalidating d'.clientID s'.msgList

variable {s s' : Info}

theorem KeepsOrders.of_msgs_eq (h : s'.msgList = s.msgList) : KeepsOrders s s' :=
  fun _ _ _ hi => h ▸ hi

variable {bit : CmdFlags → Bool} {msgs : List ConsistMsgInfo}

theorem owes_eraseP {k : HostId} (hne : clientID ≠ k) (h : Owes bit clientID msgs) :
    Owes bit clientID (msgs.eraseP (fun m => m.clientID == k)) := by
  obtain ⟨m, hm, hbit⟩ := h
  refine ⟨m, ?_, hbit⟩
  rw [← hm]
  clear hm
  induction msgs with
  | nil => rfl
  | cons a msgs ih =>
    by_cases ha : a.clientID = k
    · rw [eraseP_cons_of_pos (by simpa using ha), List.find?_cons_of_neg]
      simpa [ha] using hne.symm
    · rw [eraseP_cons_of_neg (by simpa using ha), List.find?_cons, List.find?_cons, ih]

theorem owes_append (m : ConsistMsgInfo) (h : Owes bit clientID msgs) : Owes bit clientID (msgs ++ [m]) := by
  obtain ⟨m', hm, hbit⟩ := h
  exact ⟨m', by rw [List.find?_append, hm]; rfl, hbit⟩

theorem owes_of_post {m : ConsistMsgInfo}
    (hq : ∀ m' ∈ msgs, m'.clientID ≠ m.clientID) (hbit : bit m.flags = true) :
    Owes bit m.clientID (msgs ++ [m]) := by
  refine ⟨m, ?_, hbit⟩
  rw [List.find?_append, List.find?_eq_none.mpr (by simpa using hq)]
  simp

variable {fresh : Nat}

theorem not_caches_ioClientKill (hw : l.Wf fresh) (hd : d ∈ (l.ioClientKill clientID).2) (hid : d.clientID = clientID) : ¬ d.Caches := by
  unfold ClientList.ioClientKill at hd
  cases hc : l.client clientID with
  | none =>
    rw [hc] at hd
    exact absurd hid (ClientList.client_eq_none.mp hc d hd)
  | some c =>
    rw [hc] at hd
    simp only at hd
    split at hd
    · rcases (mem_updateFirst_key hw.ids).mp hd with ⟨-, hne⟩ | ⟨a, -, -, rfl⟩
      · exact absurd hid hne
      · simp [ClientInfo.Caches, ClientInfo.setUse]
    · exact absurd hid ((mem_eraseP_key hw.ids).mp hd).2

theorem keepsOrders_kill (hw : s.clientList.Wf s.fresh) (clientID : HostId) : KeepsOrders s (kill clientID s).2 := by
  intro d hd hcaches hinv
  by_cases hid : d.clientID = clientID
  · exact absurd hcaches (not_caches_ioClientKill hw hd hid)
  · exact owes_eraseP hid hinv

variable {flags : CmdFlags} {lastWriter : Option HostId}

theorem not_caches_replyList (hw : l.Wf fresh) (hinv : flags.invalidateBlocks = true)
    (hd : d ∈ replyList clientID flags lastWriter l) (hid : d.clientID = clientID) :
    ¬ d.Caches := by
  unfold replyList at hd
  cases hc : l.client clientID with
  | none =>
    rw [hc] at hd
    exact absurd hid (ClientList.client_eq_none.mp hc d hd)
  | some c =>
    rw [hc] at hd
    simp only [hinv, if_true] at hd
    split at hd
    · exact absurd hid ((mem_eraseP_key hw.ids).mp hd).2
    · rcases (mem_updateFirst_key hw.ids).mp hd with ⟨-, hne⟩ | ⟨a, -, -, rfl⟩
      · exact absurd hid hne
      · simp [ClientInfo.Caches, ClientInfo.setCached]

theorem keepsOrders_processConsistReply (hw : s.clientList.Wf s.fresh) (clientID : HostId) :
    KeepsOrders s (processConsistReply clientID true s) := by
  intro d hd hcaches hinv
  unfold processConsistReply at hd ⊢
  cases hm : s.msgList.find? (fun m => m.clientID == clientID) with
  | none => exact hinv
  | some msg =>
    rw [hm] at hd
    by_cases hid : d.clientID = clientID
    · obtain ⟨m, hm', hinv⟩ := hinv
      rw [hid, hm] at hm'
      cases hm'
      exact absurd hcaches (not_caches_replyList hw hinv hd hid)
    · exact owes_eraseP hid hinv

/-! ## What the others do during an open -/

variable {cacheable : Bool} {loc : Locals}

theorem Opening.interferes {next : Option Nat} (h : Opening clientID useFlags cacheable (ptrsFrom next s.clientList) s) (ht : Suspended loc next s)
    (hw : s.clientList.Wf s.fresh) (hi : Interferes s s') (ht' : Suspended loc next s')
    (hk : KeepsOrders s s') : Opening clientID useFlags cacheable (ptrsFrom next s'.clientList) s' := by
  have hf := fades_of_below hi.list
  refine ⟨h.counted.fades hf, fun hc => (h.admits hc).fades hf, fun hc d' hd' hne hx => ?_⟩
  obtain ⟨d, hd, b, hdd⟩ := hf d' hd'
  rcases h.told hc d hd (fun hid => hne (hdd.clientID.trans hid)) (hdd.caches hx) with ha | ho
  · refine .inl ?_
    have hp : d'.ptr = d.ptr := hdd.ptr
    cases next with
    | none => simp [ptrsFrom] at ha
    | some q =>
      rw [ptrsFrom_eq_rest (ht.mem_ptrs rfl)] at ha
      rw [ptrsFrom_eq_rest (ht'.mem_ptrs rfl), hp]
      exact Cursor.mem_rest_of_sublist hw.ptrs hi.list.ptrs (ht'.mem_ptrs rfl)
        (hp ▸ mem_map_of_mem hd') ha
  · have hid : d'.clientID = d.clientID := hdd.clientID
    exact .inr (hk d' hd' hx (hid.symm ▸ ho))

theorem Settling.interferes (h : Settling s) (hi : Interferes s s') (hk : KeepsOrders s s') : Settling s' := by
  have hf := fades_of_below hi.list
  refine ⟨h.counted.fades hf, ?_⟩
  rcases h.safe with hs | ho
  · exact .inl (hs.below hi.list)
  · refine .inr (fun d' hd' hx => ?_)
    obtain ⟨d, hd, b, hdd⟩ := hf d' hd'
    have hid : d'.clientID = d.clientID := hdd.clientID
    exact hk d' hd' hx (hid.symm ▸ ho d hd (hdd.caches hx))

/-! ## The end of an open -/

section
variable (hw : s.clientList.Wf s.fresh)
include hw

theorem writesCounted_updateList (hc : WritesCounted s.clientList) :
    WritesCounted (updateList clientID useFlags cacheable s).clientList := by
  intro d hd
  rcases mem_updateList hw hd with ⟨hd, -⟩ | ⟨-, -, use, huse, hold⟩
  · exact hc d hd
  · have hpos : 0 ≤ use.write := by
      rcases hold with rfl | ⟨c, hcm, -, rfl⟩
      · exact Int.le_refl 0
      · exact hc c hcm
    have hflags : 0 ≤ (UseCounts.ofFlags useFlags).write := by
      simp only [UseCounts.ofFlags]
      split <;> simp
    rw [huse, UseCounts.add_write]
    exact Int.add_nonneg hpos hflags

theorem safe_updateList (ha : Admits clientID useFlags s.clientList) :
    Safe (updateList clientID useFlags true s).clientList := by
  intro c hc hwr d hd hne
  rcases mem_updateList hw hc with ⟨hc, hcx⟩ | ⟨hcx, -, use, huse, hold⟩
  · exact absurd hwr (ha c hc hcx).1
  · rcases mem_updateList hw hd with ⟨hd, hdx⟩ | ⟨hdx, -⟩
    · have hidle : ¬ 0 < d.use.ref := by
        refine (ha d hd hdx).2 ?_
        rw [huse, UseCounts.add_write, UseCounts.ofFlags] at hwr
        by_cases hf : useFlags.write = true
        · exact .inl hf
        · rcases hold with rfl | ⟨c₀, hc₀, hid, rfl⟩
          · simp [hf] at hwr
          · exact .inr ⟨c₀, hc₀, hid, by simpa [hf] using hwr⟩
      exact ⟨fun hx => hidle hx.1, fun hr => absurd hr hidle⟩
    · exact absurd (hdx.trans hcx.symm) hne

theorem told_updateList (ht : Told clientID [] s) :
    ∀ d ∈ (updateList clientID useFlags false s).clientList, d.Caches → Invalidating d.clientID s.msgList := by
  intro d hd hx
  rcases mem_updateList hw hd with ⟨hd, hne⟩ | ⟨-, hcached, -⟩
  · exact (ht d hd hne hx).resolve_left (by simp)
  · exact absurd (hcached.symm.trans hx.2) (by simp)

end

theorem safe_of_no_orders (h : ∀ d ∈ l, ¬ d.Caches) : Safe l :=
  fun c hc _ d hd _ => ⟨h d hd, fun _ => h c hc⟩

theorem Settling.done (h : Settling s) (hm : s.msgList = []) : Safe s.clientList := by
  refine h.safe.elim id (fun ho => safe_of_no_orders (fun d hd hx => ?_))
  obtain ⟨m, hfind, -⟩ := ho d hd hx
  simp [hm] at hfind

/-- What a stretch of an open leaves. -/
structure Shares (i : Info) (c : Pc) : Prop where
  counted : WritesCounted i.clientList
  safe : i.flags.inProgress = false → Safe i.clientList
  ok : c.sharingOk i

theorem shares_afterTraversal (hw : s.clientList.Wf s.fresh) (hin : s.flags.inProgress = true)
    (ho : Opening clientID useFlags loc.cacheable [] s) :
    Shares (afterTraversal (.fileConsistency clientID useFlags) loc s).1
      (afterTraversal (.fileConsistency clientID useFlags) loc s).2 := by
  have hset : Settling (updateList clientID useFlags loc.cacheable s) := by
    refine ⟨writesCounted_updateList hw ho.counted, ?_⟩
    cases hc : loc.cacheable with
    | true => exact .inl (safe_updateList hw (ho.admits hc))
    | false => exact .inr (told_updateList hw (ho.told hc))
  simp only [afterTraversal, endConsistency]
  split
  · next he => exact ⟨hset.counted, fun _ => hset.done (by simpa using he), trivial⟩
  · exact ⟨hset.counted, fun hf => absurd (hin.symm.trans hf) (by simp), hset.counted, hset.safe⟩

/-! ## The traversal of an open -/

theorem startCommand_caches (hne : c.clientID ≠ clientID) (hx : c.Caches) (hcount : 0 ≤ c.use.write) :
    startCommand clientID useFlags false lastWriter c ≠ none := by
  obtain ⟨href, hcached⟩ := hx
  unfold startCommand
  rw [if_neg (by simpa using hne), if_neg (by simpa using hcached), if_neg (by simp)]
  by_cases hzero : c.use.write = 0
  · rw [if_pos (by simp [hzero, href])]
    simp
  · have hpos : 0 < c.use.write := by omega
    rw [if_neg (by simp [hzero]), if_pos (by simpa using hpos)]
    simp

theorem startCommand_invalidates (h : startCommand clientID useFlags false lastWriter c = some flags) :
    flags.invalidateBlocks = true := by
  unfold startCommand at h
  rw [if_neg (by simp : ¬ false = true)] at h
  split at h
  · simp at h
  · split at h
    · simp at h
    · split at h
      · exact (Option.some.inj h) ▸ rfl
      · split at h
        · exact (Option.some.inj h) ▸ rfl
        · simp at h

theorem Opening.visit {q : Nat}
    {rest : List Nat} (h : Opening clientID useFlags cacheable (q :: rest) s)
    (hf : Fades s'.clientList s.clientList)
    (hm : ∀ id, Invalidating id s.msgList → Invalidating id s'.msgList)
    (hq : cacheable = false → ∀ d ∈ s'.clientList, d.clientID ≠ clientID → d.ptr = q → d.Caches →
      Invalidating d.clientID s'.msgList) :
    Opening clientID useFlags cacheable rest s' := by
  refine ⟨h.counted.fades hf, fun hc => (h.admits hc).fades hf, fun hc d' hd' hne hx => ?_⟩
  obtain ⟨d, hd, b, hdd⟩ := hf d' hd'
  have hp : d'.ptr = d.ptr := hdd.ptr
  have hid : d'.clientID = d.clientID := hdd.clientID
  rcases h.told hc d hd (hid ▸ hne) (hdd.caches hx) with ha | ho
  · rcases mem_cons.mp ha with hdq | ha
    · exact .inr (hq hc d' hd' hne (hp.trans hdq) hx)
    · exact .inl (hp ▸ ha)
  · exact .inr (hid ▸ hm _ ho)

theorem not_caches_selfList (hw : l.Wf fresh) (hinv : flags.invalidateBlocks = true)
    (hd : d ∈ selfList c flags lastWriter l) (hp : d.ptr = c.ptr) : ¬ d.Caches := by
  have hupd : d ∈ l.updateAt c.ptr (.setCached false) := by
    simp only [selfList, hinv, if_true] at hd
    split at hd
    · exact mem_of_mem_eraseP hd
    · exact hd
  rcases (mem_updateFirst_key hw.ptrs).mp hupd with ⟨-, hne⟩ | ⟨a, -, -, rfl⟩
  · exact absurd hp hne
  · simp [ClientInfo.Caches, ClientInfo.setCached]

variable {env : Env} {p : Pid}

theorem shares_traverse {ptrs : List Nat} {i : Info} {c : Pc} (hj : Walking loc ptrs s) (hin : s.flags.inProgress = true)
    (ho : Opening clientID useFlags loc.cacheable ptrs s)
    (h : traverse env p (.fileConsistency clientID useFlags) loc ptrs s = .ok (i, c)) : Shares i c := by
  -- the entry at `q` before a visit that left one there
  have hsame : ∀ {s : Info} {q : Nat} {c d : ClientInfo} {next : Option Nat}, s.clientList.Wf s.fresh →
      s.clientList.find? (fun d => d.ptr == q) = some c → d ∈ (unlockAndPin q next s).clientList →
      d.ptr = q → ∃ b, d = c.setLocked b := by
    intro s q c d next hw hf hd hp
    obtain ⟨d₀, hd₀, b, rfl⟩ := mem_unlockAndPin hd
    obtain ⟨hmem, hq⟩ := find_ptr hf
    exact ⟨b, by rw [eq_of_key_eq hw.ptrs hd₀ hmem (Eq.trans hp hq.symm)]⟩
  refine traverse_rule (fun loc ptrs s => Walking loc ptrs s ∧ s.flags.inProgress = true ∧
    Opening clientID useFlags loc.cacheable ptrs s) Shares ?_ ?_ ?_ ?_ ⟨hj, hin, ho⟩ h
  · intro loc q rest s c ⟨hj, hin, ho⟩ hf hnone
    refine ⟨hj.unlockAndPin (find_ptr hf).2, hin, ?_⟩
    refine ho.visit (fades_unlockAndPin q _ s) (fun _ h => h) (fun hc d hd hne hp hx => ?_)
    obtain ⟨b, rfl⟩ := hsame hj.wf hf hd hp
    rw [hc] at hnone
    exact absurd hnone (startCommand_caches hne hx (ho.counted c (find_ptr hf).1))
  · intro loc q rest s c flags ⟨hj, hin, ho⟩ hf hsome hid
    obtain ⟨hmem, hq⟩ := find_ptr hf
    have hbelow := below_commandSelf c flags (logCommand p c flags (unlockAndPin q rest.head? s))
    refine ⟨hj.commandSelf p hq flags, hin, ?_⟩
    refine ho.visit ((fades_unlockAndPin q _ s).trans_below hbelow) (fun _ h => h)
      (fun hc d hd hne hp hx => ?_)
    rw [hc] at hsome
    exact absurd hx (not_caches_selfList (wf_unlockAndPin hj.wf q _) (startCommand_invalidates hsome) hd
      (hp.trans hq.symm))
  · intro loc q rest s c flags ⟨hj, hin, ho⟩ hf hsome hid _
    obtain ⟨hmem, hq⟩ := find_ptr hf
    have hpost := hj.commandPost p hmem hq flags
    have hvisit : Opening clientID useFlags loc.cacheable rest
        (commandPost c flags (logCommand p c flags (unlockAndPin q rest.head? s))) := by
      refine ho.visit (fades_unlockAndPin q _ s) (fun _ h => owes_append _ h)
        (fun hc d hd hne hp hx => ?_)
      obtain ⟨b, rfl⟩ := hsame hj.wf hf hd hp
      rw [hc] at hsome
      have hinv : flags.invalidateBlocks = true := startCommand_invalidates hsome
      refine owes_of_post (m := newMsg c flags (unlockAndPin q rest.head? s)) ?_ hinv
      exact hj.quiet c hmem (hq ▸ mem_cons_self)
    refine ⟨hvisit.counted, fun hf => absurd (hin.symm.trans hf) (by simp), ?_⟩
    simp only [Pc.sharingOk]
    rw [ptrsFrom_of_suffix hpost.wf.ptrs hpost.suffix]
    exact hvisit
  · intro loc s ⟨hj, hin, ho⟩
    exact shares_afterTraversal hj.wf hin ho

/-! ## The start of an open -/

/-- Nothing about the file or the open forbids caching, and nobody else writes, or reads what is opened for writing. -/
structure Cacheable (env : Env) (clientID : HostId) (useFlags : UseFlags) (l : ClientList) : Prop where
  caching : env.clientCachingEnabled = true
  file : env.isFile = true
  swap : useFlags.swap = false ∨ clientID = env.rpc_SpriteID
  map : useFlags.map = false
  unmapped : ∀ c ∈ l, c.mapped = false
  others : ∀ d ∈ l, d.clientID ≠ clientID → ¬ 0 < d.use.write ∧ (useFlags.write = true → ¬ 0 < d.use.ref)

instance (env : Env) (clientID : HostId) (useFlags : UseFlags) (l : ClientList) :
    Decidable (Cacheable env clientID useFlags l) :=
  decidable_of_iff
    (env.clientCachingEnabled = true ∧ env.isFile = true ∧
      (useFlags.swap = false ∨ clientID = env.rpc_SpriteID) ∧ useFlags.map = false ∧
      (∀ c ∈ l, c.mapped = false) ∧
      ∀ d ∈ l, d.clientID ≠ clientID → ¬ 0 < d.use.write ∧ (useFlags.write = true → ¬ 0 < d.use.ref))
    ⟨fun ⟨h₁, h₂, h₃, h₄, h₅, h₆⟩ => ⟨h₁, h₂, h₃, h₄, h₅, h₆⟩,
      fun ⟨h₁, h₂, h₃, h₄, h₅, h₆⟩ => ⟨h₁, h₂, h₃, h₄, h₅, h₆⟩⟩

theorem cacheableFor_iff : cacheableFor env clientID useFlags l = true ↔ Cacheable env clientID useFlags l := by
  simp only [cacheableFor, Bool.and_eq_true, all_eq_true]
  constructor
  · intro ⟨hfile, hall⟩
    refine ⟨by grind, by grind, by grind, by grind, fun c hc => ?_, fun d hd hne => ?_⟩
    · simpa using (hall c hc).1
    · have hd := (hall d hd).2
      simp only [Bool.or_eq_true, beq_iff_eq, hne, false_or, Bool.not_eq_true', Bool.or_eq_false_iff,
        Bool.and_eq_false_iff, decide_eq_false_iff_not] at hd
      exact ⟨hd.1, fun hw => hd.2.resolve_right (by simp [hw])⟩
  · intro h
    refine ⟨?_, fun c hc => ⟨by simpa using h.unmapped c hc, ?_⟩⟩
    · rcases h.swap with hs | hs <;> simp [hs, h.file, h.map, h.caching]
    · by_cases hid : c.clientID = clientID
      · simp [hid]
      · obtain ⟨hw, hr⟩ := h.others c hc hid
        by_cases hf : useFlags.write = true
        · simp [hw, hr hf]
        · simp [hw, hf]

/-- An open for reading by a client that writes the file while others read it, and nothing else forbids caching. -/
structure WriteSharedReopen (env : Env) (clientID : HostId) (useFlags : UseFlags) (l : ClientList) :
    Prop where
  cacheable : Cacheable env clientID useFlags l
  reading : useFlags.write = false
  writing : ∃ c ∈ l, c.clientID = clientID ∧ 0 < c.use.write
  shared : ∃ d ∈ l, d.clientID ≠ clientID ∧ 0 < d.use.ref

instance (env : Env) (clientID : HostId) (useFlags : UseFlags) (l : ClientList) :
    Decidable (WriteSharedReopen env clientID useFlags l) :=
  decidable_of_iff
    (Cacheable env clientID useFlags l ∧ useFlags.write = false ∧
      (∃ c ∈ l, c.clientID = clientID ∧ 0 < c.use.write) ∧ ∃ d ∈ l, d.clientID ≠ clientID ∧ 0 < d.use.ref)
    ⟨fun ⟨h₁, h₂, h₃, h₄⟩ => ⟨h₁, h₂, h₃, h₄⟩, fun ⟨h₁, h₂, h₃, h₄⟩ => ⟨h₁, h₂, h₃, h₄⟩⟩

/-- The open decides rightly, unless its client is a reader and writer of a write-shared file. -/
theorem Cacheable.admits (hc : Cacheable env clientID useFlags l) (hn : ¬ WriteSharedReopen env clientID useFlags l) :
    Admits clientID useFlags l := by
  intro d hd hne
  obtain ⟨hw, hr⟩ := hc.others d hd hne
  refine ⟨hw, fun hwrites href => ?_⟩
  by_cases hf : useFlags.write = true
  · exact hr hf href
  · exact hn ⟨hc, by simpa using hf, hwrites.resolve_left hf, d, hd, hne, href⟩

theorem shares_start {i : Info} {c : Pc}
    (hw : s.clientList.Wf s.fresh) (hm : s.msgList = []) (hc : WritesCounted s.clientList)
    (hn : ¬ WriteSharedReopen env clientID useFlags s.clientList)
    (h : start env p (.scan (.fileConsistency clientID useFlags)) s = .ok (i, c)) : Shares i c := by
  refine shares_traverse (walking_start hw hm) rfl ?_ h
  refine ⟨hc, fun hcache => (cacheableFor_iff.mp hcache).admits hn, fun _ d hd _ _ => .inl ?_⟩
  exact mem_map_of_mem hd

/-! ## Runs -/

/-- An open or close, the answer of a client that did as told, or a step of these. A call-back is delivered, or its
    client is down. -/
def Label.opensAndCloses : Label → Bool
  | .call _ (.fileConsistency _ _) | .wake _ | .relock _ | .repliesIn _ => true
  | .rpcReturn _ status => status != .other
  | .close _ _ | .deleteLastWriter _ | .consistReply _ true => true
  | _ => false

namespace Server

/-- The open whose consistency action starts with this step. -/
def begins (s : Server) : Label → Option (HostId × UseFlags)
  | .call _ (.fileConsistency clientID useFlags) =>
    if s.info.flags.inProgress then none else some (clientID, useFlags)
  | .wake p =>
    match s.pc p with
    | .waitDone (.scan (.fileConsistency clientID useFlags)) => some (clientID, useFlags)
    | _ => none
  | _ => none

/-- A step of opens and closes, that starts no open for reading of a file its client writes and another reads. -/
def SharesFile (env : Env) (s : Server) (l : Label) : Prop :=
  l.opensAndCloses = true ∧ ∀ o ∈ s.begins l, ¬ WriteSharedReopen env o.1 o.2 s.info.clientList

instance (env : Env) (s : Server) (l : Label) : Decidable (SharesFile env s l) :=
  inferInstanceAs (Decidable (_ ∧ _))

/-- The file is shared safely while no action is in progress, and every open on its way sees to it. -/
structure Shared (s : Server) : Prop where
  base : Base s
  traversals : TraversalsOk s
  counted : WritesCounted s.info.clientList
  safe : s.info.flags.inProgress = false → Safe s.info.clientList
  ok : ∀ p, (s.pc p).sharingOk s.info

theorem shared_init : Shared {} where
  base := base_init
  traversals := fun _ => trivial
  counted := by simp [WritesCounted]
  safe := by simp [Safe]
  ok := fun _ => trivial

variable {s : Server} {l : Label}

theorem sparesPinned_of_opensAndCloses (h : l.opensAndCloses = true) : SparesPinned s l := by
  intro p clientID use swap cacheable hl
  simp [hl, Label.opensAndCloses] at h

variable {c : Pc} {i i' : Info}

theorem sharingOk_of_inactive (ha : c.active = false) (h : c.sharingOk i) : c.sharingOk i' := by
  cases c with
  | idle => trivial
  | waitDone a => exact h
  | inRpc f msg => simp [Pc.active] at ha
  | relock f => simp [Pc.active] at ha
  | waitReplies f => simp [Pc.active] at ha
  | returned a loc status => trivial

theorem sharingOk_interferes (hw : i.clientList.Wf i.fresh) (hi : Interferes i i')
    (hk : KeepsOrders i i') (ht : c.traversalOk i) (ht' : c.traversalOk i') (h : c.sharingOk i) :
    c.sharingOk i' := by
  unfold Pc.sharingOk at h ⊢
  split at h
  · trivial
  · trivial
  · exact h
  · exact Opening.interferes h ht hw hi ht' hk
  · exact Opening.interferes h ht hw hi ht' hk
  · exact Settling.interferes h hi hk
  · exact h.elim

variable {env : Env} {t : Server}

theorem Shared.runs_cases (h : Shared s) (hl : SharesFile env s l) (hr : Runs env s p l (.ok (i, c))) :
    (i = s.info ∧ c.active = false ∧ (s.pc p).active = false ∧ c.sharingOk i) ∨
      (((s.pc p).active = true ∨ s.info.flags.inProgress = false) ∧ Shares i c) := by
  have hp := h.ok p
  have ht := h.traversals p
  generalize hst : (Except.ok (i, c) : Stretch) = st at hr
  cases hr with
  | enter r hfree =>
    cases r with
    | fileConsistency clientID useFlags =>
      simp only [Request.enter, beginOrWait] at hst
      split at hst
      · obtain ⟨rfl, rfl⟩ := hst
        exact .inl ⟨rfl, rfl, free_inactive hfree, clientID, useFlags, rfl⟩
      · next hclear =>
        have hclear : s.info.flags.inProgress = false := by simpa using hclear
        refine .inr ⟨.inr hclear, ?_⟩
        refine shares_start h.base.wf (h.base.quiet hclear) h.counted (hl.2 (clientID, useFlags) ?_) hst.symm
        simp [begins, hclear]
    | _ => simp [Label.opensAndCloses, SharesFile] at hl
  | wake a hpc hclear =>
    rw [hpc] at hp
    obtain ⟨clientID, useFlags, rfl⟩ := hp
    refine .inr ⟨.inr hclear, ?_⟩
    refine shares_start h.base.wf (h.base.quiet hclear) h.counted (hl.2 (clientID, useFlags) ?_) hst.symm
    simp [begins, hpc]
  | relock f hpc =>
    have hact : (s.pc p).active = true := by rw [hpc]; rfl
    rw [hpc] at hp ht
    refine .inr ⟨.inl hact, ?_⟩
    cases f with
    | loop l => exact hp.elim
    | scanning a loc next =>
      cases a with
      | fileConsistency clientID useFlags =>
        exact shares_traverse (Suspended.walking ht h.base.wf) (h.base.flag p hact) hp hst.symm
      | _ => exact hp.elim
  | repliesIn f hpc hempty =>
    have hact : (s.pc p).active = true := by rw [hpc]; rfl
    rw [hpc] at hp
    refine .inr ⟨.inl hact, ?_⟩
    cases f with
    | loop l => exact hp.elim
    | ending a loc =>
      cases a with
      | fileConsistency clientID useFlags =>
        have hset : Settling s.info := hp
        obtain ⟨rfl, rfl⟩ := hst
        exact ⟨hset.counted, fun _ => hset.done hempty, trivial⟩
      | _ => exact hp.elim

theorem Acts.keepsOrders (hw : s.info.clientList.Wf s.info.fresh) (hl : l.opensAndCloses = true) (h : Acts env s l i) :
    KeepsOrders s.info i := by
  cases h with
  | close clientID flags found wasCached i h =>
    refine .of_msgs_eq ?_
    unfold Fsconsist.close at h
    split at h
    · simp at h
    · split at h
      · simp only [Except.ok.injEq, Prod.mk.injEq] at h
        rw [← h.2.2]
      · simp only [Except.ok.injEq, Prod.mk.injEq] at h
        rw [← h.2.2]
  | deleteLastWriter clientID =>
    refine .of_msgs_eq ?_
    unfold Fsconsist.deleteLastWriter
    split
    · rfl
    · split
      · rfl
      · split <;> rfl
  | consistReply clientID success =>
    cases success with
    | true => exact keepsOrders_processConsistReply hw clientID
    | false => simp [Label.opensAndCloses] at hl
  | _ => simp [Label.opensAndCloses] at hl

theorem Returns.keepsOrders {msg : ConsistMsgInfo} {status : RpcStatus} (hw : s.info.clientList.Wf s.info.fresh) (hs : status ≠ .other) (h : Returns s msg status i) :
    KeepsOrders s.info i := by
  cases h with
  | success => exact .of_msgs_eq rfl
  | down => exact keepsOrders_kill hw msg.clientID
  | other => exact absurd rfl hs

theorem Shared.interferes (h : Shared s) (hb : Base t) (ht : TraversalsOk t)
    (hi : Interferes s.info t.info) (hk : KeepsOrders s.info t.info)
    (hp : ∀ p, (s.pc p).traversalOk t.info) (hpc : ∀ p, (s.pc p).sharingOk t.info → (t.pc p).sharingOk t.info) :
    Shared t where
  base := hb
  traversals := ht
  counted := h.counted.fades (fades_of_below hi.list)
  safe := fun hf => (h.safe (hi.inProgress ▸ hf)).below hi.list
  ok := fun p => hpc p (sharingOk_interferes h.base.wf hi hk (h.traversals p) (hp p) (h.ok p))

theorem Shared.step (h : Shared s) (hl : SharesFile env s l) (hs : Server.step env s l = some t) : Shared t := by
  have hb := h.base.step hs
  have ht := h.traversals.step h.base (sparesPinned_of_opensAndCloses hl.1) hs
  obtain ⟨-, ⟨e, -, rfl⟩ | ⟨p, i, c, hr, rfl⟩ | ⟨p, f, msg, status, i, rfl, hpc, hr, rfl⟩ | ⟨i, n, ha, rfl⟩⟩ :=
    step_cases hs
  · exact ⟨hb, ht, h.counted, h.safe, h.ok⟩
  · rcases h.runs_cases hl hr with ⟨rfl, -, -, hc⟩ | ⟨hp, hsh⟩
    · refine ⟨hb, ht, h.counted, h.safe, fun q => ?_⟩
      by_cases hq : q = p
      · subst hq
        simpa using hc
      · rw [put_pc_of_ne s hq]
        exact h.ok q
    · refine ⟨hb, ht, hsh.counted, hsh.safe, fun q => ?_⟩
      by_cases hq : q = p
      · subst hq
        simpa using hsh.ok
      · rw [put_pc_of_ne s hq]
        exact sharingOk_of_inactive (h.base.others_inactive hp hq) (h.ok q)
  · have hst : status ≠ .other := by simpa [SharesFile, Label.opensAndCloses] using hl.1
    have hi := hr.interferes h.base.wf
    have hk := hr.keepsPins h.base.wf
    refine h.interferes hb ht hi (hr.keepsOrders h.base.wf hst)
      (fun q => traversalOk_interferes h.base.wf hi hk (h.traversals q)) (fun q hq => ?_)
    by_cases hqp : q = p
    · subst hqp
      rw [hpc] at hq
      rw [put_pc_self]
      cases f with
      | scanning a loc next => cases a <;> exact hq
      | loop l => exact hq
    · rw [put_pc_of_ne s hqp]
      exact hq
  · have hre : l.reopens = false := by
      cases ha with
      | reopenClient => simp [SharesFile, Label.opensAndCloses] at hl
      | _ => rfl
    have hi := ha.interferes h.base.wf hre
    exact h.interferes hb ht hi (ha.keepsOrders h.base.wf hl.1)
      (fun q => traversalOk_interferes h.base.wf hi (ha.keepsPins h.base.wf) (h.traversals q)) (fun _ => id)

theorem shared_of_run (h : Run (Server.step env) (SharesFile env) {} s) : Shared s :=
  h.invariant (I := Shared) (fun _ _ _ hi hc hs => hi.step hc hs) shared_init

end Server

/-- No two clients share a file unsafely, where none opens for reading what it writes and another reads. -/
theorem sharing_of_run (env : Env) {s : Server} (h : Run (Server.step env) (Server.SharesFile env) {} s)
    (hclear : s.info.flags.inProgress = false) :
    (s.info.clientList.map ClientInfo.clientID).Nodup ∧
      (∀ c ∈ s.info.clientList, 0 < c.use.write → ∀ d ∈ s.info.clientList, d.clientID ≠ c.clientID →
        ¬ (0 < d.use.ref ∧ d.cached = true)) ∧
      ∀ c ∈ s.info.clientList, ∀ d ∈ s.info.clientList, d.clientID ≠ c.clientID → 0 < c.use.ref →
        0 < d.use.ref → 0 < c.use.write → c.cached = false ∧ d.cached = false := by
  have hs := Server.shared_of_run h
  have hsafe := hs.safe hclear
  refine ⟨hs.base.wf.ids, fun c hc hw d hd hne => (hsafe c hc hw d hd hne).1, ?_⟩
  intro c hc d hd hne hrc hrd hw
  obtain ⟨hd', hc'⟩ := hsafe c hc hw d hd hne
  exact ⟨by simpa [ClientInfo.Caches, hrc] using hc' hrd, by simpa [ClientInfo.Caches, hrd] using hd'⟩

/-- Host 2 writes the file when host 3 opens it for reading: host 2 is told to stop caching, and answers. -/
def writeShared : List Label :=
  [.call 0 (.fileConsistency 2 { write := true }), .call 0 (.fileConsistency 3 { read := true }),
    .rpcReturn 0 .success, .relock 0, .consistReply 2 true, .repliesIn 0]

theorem writer_stops_caching :
    ∃ s, Run (Server.step fileServer) (Server.SharesFile fileServer) {} s ∧
      s.info.flags.inProgress = false ∧ ∃ c ∈ s.info.clientList, ∃ d ∈ s.info.clientList,
        d.clientID ≠ c.clientID ∧ 0 < c.use.ref ∧ 0 < d.use.ref ∧ 0 < c.use.write ∧ c.cached = false ∧
          d.cached = false := by
  have hrun : ∃ s, exec (guarded (Server.SharesFile fileServer) (Server.step fileServer)) {} writeShared =
      some s ∧ s.info.flags.inProgress = false ∧ ∃ c ∈ s.info.clientList, ∃ d ∈ s.info.clientList,
        d.clientID ≠ c.clientID ∧ 0 < c.use.ref ∧ 0 < d.use.ref ∧ 0 < c.use.write :=
    ⟨_, rfl, by decide, by decide⟩
  obtain ⟨s, he, hclear, c, hc, d, hd, hne, hrc, hrd, hw⟩ := hrun
  have h := run_of_guarded writeShared {} s he
  have hsafe := sharing_of_run fileServer h hclear
  exact ⟨s, h, hclear, c, hc, d, hd, hne, hrc, hrd, hw, hsafe.2.2 c hc d hd hne hrc hrd hw⟩

/-- Then host 2 opens the file for reading as well, and caches what host 3 reads. -/
theorem write_sharer_caches :
    ∃ s, exec (Server.step fileServer) {} (writeShared ++ [.call 0 (.fileConsistency 2 { read := true })]) =
        some s ∧ s.info.flags.inProgress = false ∧
      ∃ c ∈ s.info.clientList, ∃ d ∈ s.info.clientList, d.clientID ≠ c.clientID ∧ 0 < c.use.ref ∧
        0 < d.use.ref ∧ 0 < c.use.write ∧ c.cached = true :=
  ⟨_, rfl, by decide, by decide⟩

end SpriteKernel.Fsconsist
