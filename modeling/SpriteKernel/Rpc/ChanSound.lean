import SpriteKernel.Rpc.ChanSystem

/- Allocation of the client channels, over every interleaving of the processes and
   `RpcChanClose`: the free channels are counted, a channel has one user, the panic
   is not reached and nobody waits for a channel he could have. -/
namespace SpriteKernel.Rpc

open Function List
open Machine Transition

/-! Where no channel is chosen. -/

section shut
variable {t : ChannelTable} {serverID : Int}

/-- A congested server gets no channel where its lowest one is busy and above 0, or
    where nothing is left. -/
theorem congested_shut : (∀ i rebind, t.congestedChoice serverID ≠ .take i rebind) ↔
    (∃ k, t.Lowest serverID k ∧ (t.channels k).state ≠ chanFree ∧ 0 < k) ∨
    ((∀ k, t.Lowest serverID k → k = 0 ∧ (t.channels k).state ≠ chanFree) ∧
      (∀ i < t.rpcNumChannels, (t.channels i).serverID ≠ serverID → (t.channels i).serverID ≠ -1) ∧
      ∀ i < t.rpcNumChannels, ¬ (t.channels i).Reusable serverID) := by
  have hother : (∀ i, t.otherChoice serverID ≠ .take i true) ↔
      (∀ i < t.rpcNumChannels, (t.channels i).serverID ≠ serverID → (t.channels i).serverID ≠ -1) ∧
      ∀ i < t.rpcNumChannels, ¬ (t.channels i).Reusable serverID := by
    constructor
    · intro h
      obtain ⟨hunused, hfree⟩ := chooseOther_none h
      exact ⟨fun i hi => by simpa using first_none.1 hunused i hi, fun i hi => by simpa using first_none.1 hfree i hi⟩
    · rintro ⟨hunused, hfree⟩ i htake
      rcases (chooseOther_take htake).2 with hi | ⟨-, hi⟩
      · obtain ⟨hlt, hp, -⟩ := first_some.1 hi
        have hp' : (t.channels i).serverID ≠ serverID ∧ (t.channels i).serverID = -1 := by simpa using hp
        exact hunused i hlt hp'.1 hp'.2
      · obtain ⟨hlt, hp, -⟩ := first_some.1 hi
        exact hfree i hlt (by simpa using hp)
  have hrebind : (∀ i rebind, t.otherChoice serverID ≠ .take i rebind) ↔ ∀ i, t.otherChoice serverID ≠ .take i true := by
    refine ⟨fun h i => h i true, fun h i rebind htake => ?_⟩
    have htrue := (chooseOther_take htake).1
    exact h i (htrue ▸ htake)
  cases hk : t.first (fun c => c.serverID = serverID) with
  | none =>
    have hno : ∀ k, ¬ t.Lowest serverID k := fun k hlow => by
      rw [ChannelTable.Lowest, hk] at hlow
      cases hlow
    rw [congested_unbound hno, hrebind, hother]
    constructor
    · exact fun h => .inr ⟨fun k hlow => absurd hlow (hno k), h⟩
    · rintro (⟨k, hlow, -⟩ | h)
      · exact absurd hlow (hno k)
      · exact h.2
  | some k =>
    have huniq : ∀ j, t.Lowest serverID j → j = k := fun j hj => by
      rw [ChannelTable.Lowest, hk] at hj
      exact (Option.some.inj hj).symm
    rw [congested_lowest hk]
    by_cases hstate : (t.channels k).state = chanFree
    · rw [if_pos hstate]
      constructor
      · exact fun h => absurd rfl (h k false)
      · rintro (⟨j, hj, hbusy, -⟩ | ⟨hzero, -⟩)
        · exact absurd hstate (huniq j hj ▸ hbusy)
        · exact absurd hstate (hzero k hk).2
    · rw [if_neg hstate]
      rcases Nat.eq_zero_or_pos k with hzero | hpos
      · rw [if_neg (by omega), hrebind, hother]
        constructor
        · exact fun h => .inr ⟨fun j hj => by rw [huniq j hj]; exact ⟨hzero, hstate⟩, h⟩
        · rintro (⟨j, hj, -, hlt⟩ | h)
          · exact absurd (huniq j hj) (by omega)
          · exact h.2
      · rw [if_pos hpos]
        constructor
        · exact fun _ => .inl ⟨k, hk, hstate, hpos⟩
        · exact fun _ _ _ => (fun h => by cases h)

theorem plain_shut (hserver : serverID ≠ -1) : (∀ i rebind, t.plainChoice serverID ≠ .take i rebind) ↔
    ∀ i < t.rpcNumChannels, (t.channels i).state = chanFree →
      (t.channels i).serverID ≠ -1 ∧ (t.channels i).serverID ≠ serverID ∧ uintMax ≤ (t.channels i).requestRpcHdr.ID := by
  rw [ChannelTable.plainChoice]
  cases hmatch : t.first (fun c => c.state = chanFree ∧ c.serverID ≠ -1 ∧ c.serverID = serverID) with
  | some i =>
    obtain ⟨hi, hp, -⟩ := first_some.1 hmatch
    have hp' : (t.channels i).state = chanFree ∧ (t.channels i).serverID ≠ -1 ∧ (t.channels i).serverID = serverID := by
      simpa using hp
    constructor
    · exact fun h => absurd rfl (h i false)
    · exact fun h => absurd hp'.2.2 (h i hi hp'.1).2.1
  | none =>
    have hno : ∀ i < t.rpcNumChannels, (t.channels i).state = chanFree → (t.channels i).serverID ≠ serverID := by
      intro i hi hstate heq
      have hnone := first_none.1 hmatch i hi
      simp [hstate, heq, hserver] at hnone
    constructor
    · intro h
      obtain ⟨hunused, hfree⟩ := chooseOther_none (fun i => h i true)
      intro i hi hstate
      have hun : (t.channels i).serverID ≠ -1 := by
        intro heq
        have hnone := first_none.1 hunused i hi
        simp [hstate, heq] at hnone
      exact ⟨hun, hno i hi hstate, leastRecent_none.1 hfree i hi ⟨hstate, hun, hno i hi hstate⟩⟩
    · intro h i rebind htake
      rcases (chooseOther_take htake).2 with hi | ⟨-, hi⟩
      · obtain ⟨hlt, hp, -⟩ := first_some.1 hi
        have hp' : (t.channels i).state = chanFree ∧ (t.channels i).serverID = -1 := by simpa using hp
        exact (h i hlt hp'.1).1 hp'.2
      · have hnone : t.leastRecent serverID = none := leastRecent_none.2 (fun j hj hr => (h j hj hr.1).2.2)
        rw [hnone] at hi
        nomatch hi

/-- `RpcChanAlloc` would not give the server a channel. -/
def ChannelTable.Shut (t : ChannelTable) (channelStateInterval now : Nat) (serverID : Int) : Prop :=
  ∀ i rebind, t.choice channelStateInterval now serverID ≠ .take i rebind

variable {interval now : Nat} {u : ChannelTable}

theorem shut_iff : t.Shut interval now serverID ↔
    (1 ≤ t.numFreeChannels → if t.congested interval now serverID then
      ∀ i rebind, t.congestedChoice serverID ≠ .take i rebind
    else ∀ i rebind, t.plainChoice serverID ≠ .take i rebind) := by
  rw [ChannelTable.Shut, ChannelTable.choice]
  by_cases hnum : t.numFreeChannels < 1
  · rw [if_pos hnum]
    exact ⟨fun _ h => absurd h (by omega), fun _ _ _ => nofun⟩
  · rw [if_neg hnum]
    split
    · exact ⟨fun h _ => h, fun h => h (by omega)⟩
    · exact ⟨fun h _ => h, fun h => h (by omega)⟩

/-- A free channel goes to somebody else, or to `RpcChanClose`: who had none to take has
    none now. -/
theorem shut_of_taken {i : Nat} (hserver : serverID ≠ -1)
    (hshut : t.Shut interval now serverID) (hnum : u.rpcNumChannels = t.rpcNumChannels)
    (hfree : u.numFreeChannels ≤ t.numFreeChannels)
    (hcong : u.congested interval now serverID = t.congested interval now serverID)
    (hi : i < t.rpcNumChannels) (hbefore : (t.channels i).state = chanFree) (hafter : (u.channels i).state ≠ chanFree)
    (hbound : (u.channels i).serverID = (t.channels i).serverID ∨
      (u.channels i).serverID ≠ serverID ∧ (u.channels i).serverID ≠ -1)
    (hrest : ∀ j, j ≠ i → u.channels j = t.channels j) : u.Shut interval now serverID := by
  rw [shut_iff] at hshut ⊢
  intro hpos
  have hshut := hshut (by omega)
  rw [hcong]
  split at hshut
  · rename_i hc
    rw [if_pos hc, congested_shut]
    rw [congested_shut] at hshut
    -- the channel taken was not the lowest one of this server
    have hlow : ¬ t.Lowest serverID i := by
      intro hlow
      rcases hshut with ⟨k, hk, hbusy, -⟩ | ⟨hzero, -⟩
      · have heq : k = i := Option.some.inj (hk.symm.trans hlow)
        exact hbusy (heq ▸ hbefore)
      · exact (hzero i hlow).2 hbefore
    have hkeep : ∀ k, k ≠ i → t.Lowest serverID k → u.Lowest serverID k := by
      intro k hki hk
      obtain ⟨hlt, hs, hbelow⟩ := lowest_iff.1 hk
      refine lowest_iff.2 ⟨by rwa [hnum], by rwa [hrest k hki], fun j hj => ?_⟩
      by_cases hji : j = i
      · subst hji
        rcases hbound with heq | ⟨hne, -⟩
        · rw [heq]
          exact hbelow j hj
        · exact hne
      · rw [hrest j hji]
        exact hbelow j hj
    rcases hshut with ⟨k, hk, hbusy, hlt⟩ | ⟨hzero, hunused, hnone⟩
    · have hki : k ≠ i := fun heq => hlow (heq ▸ hk)
      exact .inl ⟨k, hkeep k hki hk, by rwa [hrest k hki], hlt⟩
    · right
      refine ⟨fun k hk => ?_, fun j hj => ?_, fun j hj hr => ?_⟩
      · obtain ⟨hlt, hs, -⟩ := lowest_iff.1 hk
        -- the server has a channel in the new table, so it had one in the old
        have hold : (t.channels k).serverID = serverID := by
          by_cases hki : k = i
          · subst hki
            rcases hbound with heq | ⟨hne, -⟩
            · rw [← heq]
              exact hs
            · exact absurd hs hne
          · rwa [hrest k hki] at hs
        obtain ⟨m, -, hm⟩ := exists_lowest (by rwa [hnum] at hlt) hold
        obtain ⟨rfl, hbusy⟩ := hzero m hm
        have hmi : 0 ≠ i := fun heq => hlow (heq ▸ hm)
        have hk0 : k = 0 := Option.some.inj (hk.symm.trans (hkeep 0 hmi hm))
        subst hk0
        exact ⟨rfl, by rwa [hrest 0 hmi]⟩
      · by_cases hji : j = i
        · subst hji
          rcases hbound with heq | ⟨-, hne⟩
          · rw [heq]
            exact hunused j hi
          · exact fun _ => hne
        · rw [hrest j hji]
          exact hunused j (by omega)
      · by_cases hji : j = i
        · exact hafter (hji ▸ hr.1)
        · rw [hrest j hji] at hr
          exact hnone j (by omega) hr
  · rename_i hc
    rw [if_neg hc, plain_shut hserver]
    rw [plain_shut hserver] at hshut
    intro j hj hstate
    by_cases hji : j = i
    · exact absurd (hji ▸ hstate) hafter
    · rw [hrest j hji] at hstate ⊢
      exact hshut j (by omega) hstate

theorem shut_congr (hserver : serverID ≠ -1)
    (hshut : t.Shut interval now serverID) (hnum : u.rpcNumChannels = t.rpcNumChannels)
    (hfree : u.numFreeChannels ≤ t.numFreeChannels)
    (hcong : 1 ≤ t.numFreeChannels → u.congested interval now serverID = t.congested interval now serverID)
    (hstate : ∀ j, (u.channels j).state = chanFree ↔ (t.channels j).state = chanFree)
    (hbound : ∀ j, (u.channels j).serverID = (t.channels j).serverID)
    (hID : ∀ j, (t.channels j).state = chanFree → (u.channels j).requestRpcHdr.ID = (t.channels j).requestRpcHdr.ID) :
    u.Shut interval now serverID := by
  have hlow : ∀ k, u.Lowest serverID k ↔ t.Lowest serverID k := by
    intro k
    simp only [lowest_iff, hnum, hbound]
  have hreuse : ∀ j, (u.channels j).Reusable serverID ↔ (t.channels j).Reusable serverID := by
    intro j
    simp only [RpcClientChannel.Reusable, hstate, hbound]
  rw [shut_iff] at hshut ⊢
  intro hpos
  have hshut := hshut (by omega)
  rw [hcong (by omega)]
  split at hshut
  · rename_i hc
    rw [if_pos hc, congested_shut]
    rw [congested_shut] at hshut
    simpa only [hlow, hstate, hbound, hreuse, hnum, ne_eq] using hshut
  · rename_i hc
    rw [if_neg hc, plain_shut hserver]
    rw [plain_shut hserver] at hshut
    intro j hj hfreej
    have hold := (hstate j).1 hfreej
    rw [hbound, hID j hold]
    exact hshut j (by omega) hold

end shut

variable {states : List UnhappyServer} {serverID other : Int}

theorem getChannelAllocState_clear {now : Nat} (hother : other ≠ serverID) (hused : other ≠ -1) :
    getChannelAllocState (setChannelAllocStateInt now serverID false states) other =
      getChannelAllocState states other := by
  rw [setChannelAllocStateInt, allocStateSpot]
  cases hi : states.findIdx? (fun u => u.serverID = serverID) with
  | none => rfl
  | some i =>
    obtain ⟨hlt, hp, -⟩ := List.findIdx?_eq_some_iff_getElem.1 hi
    have hserver : states[i].serverID = serverID := by simpa using hp
    have hfind : (states.modify i (fun u => { u with serverID := -1 })).find? (fun u => u.serverID = other) =
        states.find? (fun u => u.serverID = other) := by
      refine find_modify _ _ states i (fun x hx => ?_)
      obtain ⟨-, rfl⟩ := List.getElem?_eq_some_iff.1 hx
      refine ⟨by simp [hserver, hother.symm], by simp [hused.symm]⟩
    show getChannelAllocState (states.modify i _) other = _
    rw [getChannelAllocState, hfind, getChannelAllocState]

variable {t : ChannelTable}

theorem settle_congested {interval now : Nat} (hother : other ≠ serverID)
    (hused : other ≠ -1) : (t.settle interval now serverID).congested interval now other = t.congested interval now other := by
  rw [ChannelTable.settle]
  split
  · rfl
  · rw [ChannelTable.congested, getChannelAllocState_clear hother hused, ChannelTable.congested]

theorem settle_channels (t : ChannelTable) (interval now : Nat) (serverID : Int) :
    (t.settle interval now serverID).channels = t.channels ∧
    (t.settle interval now serverID).rpcNumChannels = t.rpcNumChannels ∧
    (t.settle interval now serverID).numFreeChannels = t.numFreeChannels := by
  rw [ChannelTable.settle]
  split
  · exact ⟨rfl, rfl, rfl⟩
  · exact ⟨rfl, rfl, rfl⟩

/-! The invariant. -/

/-- A channel is free, with a process, or with `RpcChanClose`; the free ones are counted; who waits would be given
    none. -/
structure ChanInv (cfg : ChanConfig) (sys : ChanSystem) : Prop where
  counted : Tally.Sums
    (fun i => if i < sys.table.rpcNumChannels ∧ (sys.table.channels i).state = chanFree then (1 : Int) else 0)
    sys.table.numFreeChannels
  held : ∀ pid ch, sys.procs pid = .holding ch → ch < sys.table.rpcNumChannels ∧
    (sys.table.channels ch).state.busy = true ∧ (sys.table.channels ch).state.free = false ∧
    (sys.table.channels ch).serverID ≠ -1 ∧ ch ∉ sys.closing
  apart : ∀ pid pid' ch, sys.procs pid = .holding ch → sys.procs pid' = .holding ch → pid = pid'
  closing : ∀ ch ∈ sys.closing, ch < sys.table.rpcNumChannels ∧
    (sys.table.channels ch).state = { chanFree with busy := true }
  nodup : sys.closing.Nodup
  known : ∀ ch < sys.table.rpcNumChannels,
    (sys.table.channels ch).state = chanFree ∨ ch ∈ sys.closing ∨ ∃ pid, sys.procs pid = .holding ch
  asked : ∀ pid serverID, sys.procs pid = .waiting serverID ∨ sys.procs pid = .woken serverID → 0 ≤ serverID
  calm : sys.panicked = false
  attended : ∀ pid serverID, sys.procs pid = .waiting serverID →
    sys.table.Shut cfg.channelStateInterval sys.now serverID

section invariant
variable {cfg : ChanConfig} {sys : ChanSystem}

theorem exists_free_channel (h : ChanInv cfg sys) (hpos : 1 ≤ sys.table.numFreeChannels) :
    ∃ i < sys.table.rpcNumChannels, (sys.table.channels i).state = chanFree := by
  by_contra hno
  push Not at hno
  have hzero := h.counted.eq_zero (fun i => if_neg (fun hf => hno i hf.1 hf.2))
  omega

variable {i : Nat}

theorem free_of_unused (h : ChanInv cfg sys) (hi : i < sys.table.rpcNumChannels)
    (hunused : (sys.table.channels i).serverID = -1) (hclosing : i ∉ sys.closing) :
    (sys.table.channels i).state = chanFree := by
  rcases h.known i hi with hfree | hmem | ⟨pid, hp⟩
  · exact hfree
  · exact absurd hmem hclosing
  · exact absurd hunused (h.held pid i hp).2.2.2.1

variable {serverID : Int} {rebind : Bool}

/-- What the congested case comes to when it passes its own channels by. -/
theorem otherChoice_take (h : ChanInv cfg sys) (hserver : 0 ≤ serverID) (hcare : ∀ i, sys.table.Lowest (-1) i → i ∉ sys.closing)
    (htake : sys.table.otherChoice serverID = .take i rebind) :
    i < sys.table.rpcNumChannels ∧ (sys.table.channels i).state = chanFree ∧ rebind = true := by
  obtain ⟨rfl, hi | ⟨-, hi⟩⟩ := chooseOther_take htake
  · obtain ⟨hlt, hp, hbelow⟩ := first_some.1 hi
    have hp' : (sys.table.channels i).serverID ≠ serverID ∧ (sys.table.channels i).serverID = -1 := by simpa using hp
    have hlow : sys.table.Lowest (-1) i := by
      refine lowest_iff.2 ⟨hlt, hp'.2, fun j hj heq => ?_⟩
      have hne : (-1 : Int) ≠ serverID := by omega
      have hno := hbelow j hj
      simp [heq, hne] at hno
    exact ⟨hlt, free_of_unused h hlt hp'.2 (hcare i hlow), rfl⟩
  · obtain ⟨hlt, hp, -⟩ := first_some.1 hi
    have hr : (sys.table.channels i).Reusable serverID := by simpa using hp
    exact ⟨hlt, hr.1, rfl⟩

theorem plainChoice_take (htake : t.plainChoice serverID = .take i rebind) :
    i < t.rpcNumChannels ∧ (t.channels i).state = chanFree ∧ (rebind = false → (t.channels i).serverID = serverID) := by
  rw [ChannelTable.plainChoice] at htake
  cases hmatch : t.first (fun c => c.state = chanFree ∧ c.serverID ≠ -1 ∧ c.serverID = serverID) with
  | some j =>
    rw [hmatch] at htake
    obtain ⟨rfl, rfl⟩ := Choice.take.inj htake
    obtain ⟨hlt, hp, -⟩ := first_some.1 hmatch
    have hp' : (t.channels j).state = chanFree ∧ (t.channels j).serverID ≠ -1 ∧ (t.channels j).serverID = serverID := by
      simpa using hp
    exact ⟨hlt, hp'.1, fun _ => hp'.2.2⟩
  | none =>
    rw [hmatch] at htake
    obtain ⟨rfl, hi | ⟨-, hi⟩⟩ := chooseOther_take htake
    · obtain ⟨hlt, hp, -⟩ := first_some.1 hi
      have hp' : (t.channels i).state = chanFree ∧ (t.channels i).serverID = -1 := by simpa using hp
      exact ⟨hlt, hp'.1, nofun⟩
    · obtain ⟨hlt, hr⟩ := leastRecent_some hi
      exact ⟨hlt, hr.1, nofun⟩

/-- The channel that is allocated is free, and is bound to the server already where it
    is not bound now. -/
theorem choice_take (h : ChanInv cfg sys) (hserver : 0 ≤ serverID)
    (hcare : sys.AllocCareful cfg serverID) (htake : sys.choice cfg serverID = .take i rebind) :
    i < sys.table.rpcNumChannels ∧ (sys.table.channels i).state = chanFree ∧
    (rebind = false → (sys.table.channels i).serverID = serverID) := by
  rw [ChanSystem.choice, ChannelTable.choice] at htake
  split at htake
  · cases htake
  have hcare := hcare (by omega)
  split at htake
  · rename_i hcong
    rw [if_pos hcong] at hcare
    cases hk : sys.table.first (fun c => c.serverID = serverID) with
    | none =>
      have hno : ∀ k, ¬ sys.table.Lowest serverID k := fun k hlow => by
        rw [ChannelTable.Lowest, hk] at hlow
        cases hlow
      rw [congested_unbound hno] at htake
      obtain ⟨hlt, hfree, rfl⟩ := otherChoice_take h hserver (hcare.2 (fun k hlow => absurd hlow (hno k))) htake
      exact ⟨hlt, hfree, fun h => by cases h⟩
    | some k =>
      obtain ⟨hlt, hbound, -⟩ := lowest_iff.1 hk
      rw [congested_lowest hk] at htake
      split at htake
      · rename_i hfree
        obtain ⟨rfl, rfl⟩ := Choice.take.inj htake
        exact ⟨hlt, hfree, fun _ => hbound⟩
      rename_i hbusy
      split at htake
      · cases htake
      have hk0 : k = 0 := by omega
      subst hk0
      have honly : ∀ k, sys.table.Lowest serverID k → k = 0 ∧ (sys.table.channels 0).state ≠ chanFree :=
        fun j hj => ⟨Option.some.inj (hj.symm.trans hk), hbusy⟩
      obtain ⟨hlt, hfree, rfl⟩ := otherChoice_take h hserver (hcare.2 honly) htake
      exact ⟨hlt, hfree, fun h => by cases h⟩
  · exact plainChoice_take htake

/-- **The panic of `RpcChanAlloc` is not reached.** -/
theorem choice_ne_panic (h : ChanInv cfg sys) (hserver : 0 ≤ serverID)
    (hcare : sys.AllocCareful cfg serverID) : sys.choice cfg serverID ≠ .panic := by
  intro hpanic
  rw [ChanSystem.choice, ChannelTable.choice] at hpanic
  split at hpanic
  · nomatch hpanic
  have hcare := hcare (by omega)
  split at hpanic
  · rename_i hcong
    rw [if_pos hcong] at hcare
    have hshut := congested_shut.1 (fun i rebind htake => Choice.noConfusion (hpanic.symm.trans htake))
    rcases hshut with ⟨k, hk, hbusy, hlt⟩ | ⟨hlow, hunused, hnone⟩
    · rw [congested_lowest hk, if_neg hbusy, if_pos hlt] at hpanic
      nomatch hpanic
    · cases hk : sys.table.first (fun c => c.serverID = serverID) with
      | some k =>
        obtain ⟨rfl, hbusy⟩ := hlow k hk
        obtain ⟨i, hi, hneg | hr⟩ := hcare.1 hk hbusy
        · exact hunused i hi (by omega) hneg
        · exact hnone i hi hr
      | none =>
        -- no channel of the server, and one that is free
        obtain ⟨i, hi, hfree⟩ := exists_free_channel h (by omega)
        have hne : (sys.table.channels i).serverID ≠ serverID := by simpa using first_none.1 hk i hi
        exact hnone i hi ⟨hfree, hunused i hi hne, hne⟩
  · rename_i hcong
    rw [if_neg hcong] at hcare
    have hshut := (plain_shut (by omega)).1 (fun i rebind htake => Choice.noConfusion (hpanic.symm.trans htake))
    obtain ⟨i, hi, hfree, hneg | heq | hID⟩ := hcare
    · exact (hshut i hi hfree).1 hneg
    · exact (hshut i hi hfree).2.1 heq
    · exact absurd hID (not_lt.2 (hshut i hi hfree).2.2)

theorem initial_chanInv (cfg : ChanConfig) (n : Nat) (memory : Nat → RpcClientChannel) :
    ChanInv cfg (ChanSystem.initial n memory) where
  counted := Tally.sums_count_all (fun _ _ => rfl)
  held := fun _ _ h => nomatch h
  apart := fun _ _ _ h => nomatch h
  closing := fun _ h => nomatch h
  nodup := nodup_nil
  known := fun _ _ => .inl rfl
  asked := fun _ _ h => h.elim nofun nofun
  calm := rfl
  attended := fun _ _ h => nomatch h

theorem set_self (t : ChannelTable) (i : Nat) (chan : RpcClientChannel) : (t.set i chan).channels i = chan := by
  exact update_self i chan t.channels

theorem set_other (t : ChannelTable) {j : Nat} (chan : RpcClientChannel) (h : j ≠ i) :
    (t.set i chan).channels j = t.channels j := by
  exact update_of_ne h chan t.channels

variable {pid : Nat} {procs : Nat → ChanProc}

theorem stayed {p : Nat} {x y : ChanProc} (hne : x ≠ y) (h : update procs pid x p = y) : procs p = y :=
  (of_update_ne h hne).2

theorem stays {p : Nat} {y : ChanProc} (x : ChanProc) (hp : p ≠ pid) (h : procs p = y) : update procs pid x p = y := by
  rw [update_of_ne hp]
  exact h

theorem counted_set (i : Nat) (chan : RpcClientChannel)
    (h : Tally.Sums (fun j => if j < t.rpcNumChannels ∧ (t.channels j).state = chanFree then (1 : Int) else 0)
      t.numFreeChannels) :
    Tally.Sums (fun j => if j < t.rpcNumChannels ∧ ((t.set i chan).channels j).state = chanFree then (1 : Int) else 0)
      (t.numFreeChannels + ((if i < t.rpcNumChannels ∧ chan.state = chanFree then 1 else 0) -
        (if i < t.rpcNumChannels ∧ (t.channels i).state = chanFree then 1 else 0))) := by
  have hc := h.count_change i (q := fun j => j < t.rpcNumChannels ∧ ((t.set i chan).channels j).state = chanFree)
    (fun j hj => by rw [set_other t chan hj])
  simpa only [set_self] using hc

theorem inv_of_wait (h : ChanInv cfg sys) (hserver : 0 ≤ serverID)
    (hout : ∀ ch, sys.procs pid ≠ .holding ch) (hwait : sys.choice cfg serverID = .wait) :
    ChanInv cfg { sys with procs := update sys.procs pid (.waiting serverID) } where
  counted := h.counted
  held := fun p ch hp => h.held p ch (stayed (by simp) hp)
  apart := fun p q ch hp hq => h.apart p q ch (stayed (by simp) hp) (stayed (by simp) hq)
  closing := h.closing
  nodup := h.nodup
  known := fun ch hch => by
    rcases h.known ch hch with hfree | hmem | ⟨p, hp⟩
    · exact .inl hfree
    · exact .inr (.inl hmem)
    · exact .inr (.inr ⟨p, stays _ (fun heq => hout ch (heq ▸ hp)) hp⟩)
  asked := fun p s hp => by
    rcases hp with hp | hp
    · rcases of_update hp with ⟨-, heq⟩ | ⟨-, hp⟩
      · exact ChanProc.waiting.inj heq ▸ hserver
      · exact h.asked p s (.inl hp)
    · exact h.asked p s (.inr (stayed (by simp) hp))
  calm := h.calm
  attended := fun p s hp => by
    rcases of_update hp with ⟨-, heq⟩ | ⟨-, hp⟩
    · obtain rfl := ChanProc.waiting.inj heq
      exact fun i rebind htake => Choice.noConfusion (hwait.symm.trans htake)
    · exact h.attended p s hp

theorem inv_of_take (h : ChanInv cfg sys) (hserver : 0 ≤ serverID)
    (hout : ∀ ch, sys.procs pid ≠ .holding ch) (hcare : sys.AllocCareful cfg serverID) (htake : sys.choice cfg serverID = .take i rebind) :
    ChanInv cfg { sys with
      table := (sys.table.settle cfg.channelStateInterval sys.now serverID).allocate serverID i rebind
      procs := update sys.procs pid (.holding i) } := by
  obtain ⟨hi, hfree, hsame⟩ := choice_take h hserver hcare htake
  obtain ⟨hchan, hnum, hcount⟩ := settle_channels sys.table cfg.channelStateInterval sys.now serverID
  have hbusy : chanBusy ≠ chanFree := by decide
  have hnotheld : ∀ p, sys.procs p ≠ .holding i := fun p hp => by
    have hst := (h.held p i hp).2.1
    rw [hfree] at hst
    exact absurd hst (by decide)
  have hnotclosing : i ∉ sys.closing := fun hmem => by
    have hst := (h.closing i hmem).2
    rw [hfree] at hst
    exact absurd hst (by decide)
  have hbound : (if rebind then serverID else (sys.table.channels i).serverID) = serverID := by
    cases rebind with
    | false => exact hsame rfl
    | true => rfl
  generalize hu : (sys.table.settle cfg.channelStateInterval sys.now serverID).allocate serverID i rebind = u
  have hself : u.channels i = { sys.table.channels i with state := chanBusy, serverID := serverID } := by
    rw [← hu, ChannelTable.allocate]
    rw [set_self, hchan, hbound]
  have hrest : ∀ j, j ≠ i → u.channels j = sys.table.channels j := by
    intro j hj
    rw [← hu, ChannelTable.allocate]
    rw [set_other _ _ hj, hchan]
  have hunum : u.rpcNumChannels = sys.table.rpcNumChannels := by
    rw [← hu]
    exact hnum
  have hucount : u.numFreeChannels = sys.table.numFreeChannels - 1 := by
    rw [← hu, ← hcount]
    rfl
  exact {
    counted := by
      have hc := h.counted.count_change i
        (q := fun j => j < u.rpcNumChannels ∧ (u.channels j).state = chanFree)
        (fun j hj => by rw [hrest j hj, hunum])
      rw [if_neg (fun hf => hbusy (by simpa only [hself] using hf.2)), if_pos ⟨hi, hfree⟩] at hc
      rw [hucount]
      exact hc
    held := fun p ch hp => by
      show ch < u.rpcNumChannels ∧ (u.channels ch).state.busy = true ∧ (u.channels ch).state.free = false ∧
        (u.channels ch).serverID ≠ -1 ∧ ch ∉ sys.closing
      rcases of_update hp with ⟨-, heq⟩ | ⟨-, hp⟩
      · obtain rfl := ChanProc.holding.inj heq
        rw [hself, hunum]
        exact ⟨hi, rfl, rfl, show serverID ≠ -1 by omega, hnotclosing⟩
      · have hci : ch ≠ i := fun heq => hnotheld p (heq ▸ hp)
        rw [hrest ch hci, hunum]
        exact h.held p ch hp
    apart := fun p q ch hp hq => by
      rcases of_update hp with ⟨hpid, heq⟩ | ⟨-, hp'⟩
      · obtain rfl := ChanProc.holding.inj heq
        rcases of_update hq with ⟨hqid, -⟩ | ⟨-, hq'⟩
        · exact hpid.trans hqid.symm
        · exact absurd hq' (hnotheld q)
      · rcases of_update hq with ⟨-, heq⟩ | ⟨-, hq'⟩
        · obtain rfl := ChanProc.holding.inj heq
          exact absurd hp' (hnotheld p)
        · exact h.apart p q ch hp' hq'
    closing := fun ch hch => by
      have hci : ch ≠ i := fun heq => hnotclosing (heq ▸ hch)
      rw [hrest ch hci, hunum]
      exact h.closing ch hch
    nodup := h.nodup
    known := fun ch hch => by
      replace hch : ch < u.rpcNumChannels := hch
      rw [hunum] at hch
      by_cases hci : ch = i
      · exact .inr (.inr ⟨pid, by rw [hci]; exact update_self pid _ sys.procs⟩)
      · rw [hrest ch hci]
        rcases h.known ch hch with hf | hmem | ⟨p, hp⟩
        · exact .inl hf
        · exact .inr (.inl hmem)
        · exact .inr (.inr ⟨p, stays _ (fun heq => hout ch (heq ▸ hp)) hp⟩)
    asked := fun p s hp => h.asked p s (hp.imp (stayed (by simp)) (stayed (by simp)))
    calm := h.calm
    attended := fun p s hp => by
      replace hp := stayed (by simp) hp
      have hold := h.attended p s hp
      have hs : 0 ≤ s := h.asked p s (.inl hp)
      have hne : s ≠ serverID := fun heq => hold i rebind (heq ▸ htake)
      refine shut_of_taken (u := u) (by omega) hold hunum (by omega) ?_ hi hfree (by rw [hself]; exact hbusy) ?_ hrest
      · rw [← hu]
        exact settle_congested hne (by omega)
      · rw [hself]
        exact .inr ⟨hne.symm, show serverID ≠ -1 by omega⟩ }

variable {ch : Nat}

section
variable (h : ChanInv cfg sys)
include h

theorem inv_of_use {rpcID : Nat} (hp : sys.procs pid = .holding ch)
    {chan : RpcClientChannel} (hbusy : chan.state.busy = (sys.table.channels ch).state.busy)
    (hfree : chan.state.free = (sys.table.channels ch).state.free)
    (hserver : chan.serverID = (sys.table.channels ch).serverID) :
    ChanInv cfg { sys with table := { sys.table.set ch chan with rpcID := rpcID } } := by
  obtain ⟨hlt, hb, hf, -, hclosing⟩ := h.held pid ch hp
  have hold : (sys.table.channels ch).state ≠ chanFree := fun heq => by
    rw [heq] at hb
    exact absurd hb (by decide)
  have hnew : chan.state ≠ chanFree := fun heq => by
    rw [hb, heq] at hbusy
    exact absurd hbusy (by decide)
  have hstate : ∀ j, ((sys.table.set ch chan).channels j).state = chanFree ↔ (sys.table.channels j).state = chanFree := by
    intro j
    by_cases hj : j = ch
    · subst hj
      rw [set_self]
      exact ⟨fun heq => absurd heq hnew, fun heq => absurd heq hold⟩
    · rw [set_other _ _ hj]
  have hbound : ∀ j, ((sys.table.set ch chan).channels j).serverID = (sys.table.channels j).serverID := by
    intro j
    by_cases hj : j = ch
    · subst hj
      rw [set_self, hserver]
    · rw [set_other _ _ hj]
  exact {
    counted := by
      have hc := counted_set ch chan h.counted
      rw [if_neg (fun hx => hnew hx.2), if_neg (fun hx => hold hx.2), sub_zero, add_zero] at hc
      exact hc
    held := fun p c hpc => by
      obtain ⟨h1, h2, h3, h4, h5⟩ := h.held p c hpc
      rw [hbound]
      by_cases hc : c = ch
      · subst hc
        rw [set_self, hbusy, hfree]
        exact ⟨h1, h2, h3, h4, h5⟩
      · rw [set_other _ _ hc]
        exact ⟨h1, h2, h3, h4, h5⟩
    apart := h.apart
    closing := fun c hc => by
      have hne : c ≠ ch := fun heq => hclosing (heq ▸ hc)
      rw [set_other _ _ hne]
      exact h.closing c hc
    nodup := h.nodup
    known := fun c hc => by
      rcases h.known c hc with hx | hx
      · exact .inl ((hstate c).2 hx)
      · exact .inr hx
    asked := h.asked
    calm := h.calm
    attended := fun p s hps => by
      have hs := h.asked p s (.inl hps)
      refine shut_congr (by omega) (h.attended p s hps) rfl le_rfl (fun _ => rfl) hstate hbound (fun j hj => ?_)
      have hne : j ≠ ch := fun heq => hold (heq ▸ hj)
      rw [set_other _ _ hne] }

/-- What a process holds is as it was when another channel changes. -/
theorem held_elsewhere {x : RpcClientChannel} {closing : List Nat} {p c : Nat} (hcc : c ≠ ch) (hpc : sys.procs p = .holding c)
    (hclosing : c ∉ sys.closing → c ∉ closing) :
    c < sys.table.rpcNumChannels ∧ ((sys.table.set ch x).channels c).state.busy = true ∧
      ((sys.table.set ch x).channels c).state.free = false ∧ ((sys.table.set ch x).channels c).serverID ≠ -1 ∧ c ∉ closing := by
  rw [set_other _ _ hcc]
  obtain ⟨h1, h2, h3, h4, h5⟩ := h.held p c hpc
  exact ⟨h1, h2, h3, h4, hclosing h5⟩

theorem inv_of_free (hneg : cfg.channelNegAcks = true) (hp : sys.procs pid = .holding ch) : ChanInv cfg (sys.freeChannel cfg pid ch) := by
  obtain ⟨hlt, hb, -, -, hclosing⟩ := h.held pid ch hp
  have hold : (sys.table.channels ch).state ≠ chanFree := fun heq => by
    rw [heq] at hb
    exact absurd hb (by decide)
  rw [ChanSystem.freeChannel, if_neg hold]
  rw [if_pos (.inr hneg)]
  have hwoken : ∀ p c, (update sys.procs pid .outside p).wake = .holding c → p ≠ pid ∧ sys.procs p = .holding c := by
    intro p c hpc
    have hupd : update sys.procs pid .outside p = .holding c := by
      revert hpc
      cases update sys.procs pid .outside p with
      | waiting s => nofun
      | _ => exact id
    rcases of_update hupd with ⟨-, hno⟩ | hpc
    · nomatch hno
    · exact hpc
  exact {
    counted := by
      have hc := counted_set ch { sys.table.channels ch with state := chanFree } h.counted
      rw [if_pos ⟨hlt, rfl⟩, if_neg (fun hx => hold hx.2)] at hc
      exact hc
    held := fun p c hpc => by
      obtain ⟨hne, hpc⟩ := hwoken p c hpc
      exact held_elsewhere h (fun heq => hne (h.apart p pid ch (heq ▸ hpc) hp)) hpc id
    apart := fun p q c hpc hqc => h.apart p q c (hwoken p c hpc).2 (hwoken q c hqc).2
    closing := fun c hc => by
      have hcc : c ≠ ch := fun heq => hclosing (heq ▸ hc)
      show c < sys.table.rpcNumChannels ∧ ((sys.table.set ch _).channels c).state = _
      rw [set_other _ _ hcc]
      exact h.closing c hc
    nodup := h.nodup
    known := fun c hc => by
      show ((sys.table.set ch _).channels c).state = chanFree ∨ c ∈ sys.closing ∨
        ∃ p, (update sys.procs pid .outside p).wake = .holding c
      by_cases hcc : c = ch
      · rw [hcc, set_self]
        exact .inl rfl
      · rw [set_other _ _ hcc]
        rcases h.known c hc with hf | hmem | ⟨p, hpc⟩
        · exact .inl hf
        · exact .inr (.inl hmem)
        · have hne : p ≠ pid := fun heq => hcc (ChanProc.holding.inj ((heq ▸ hpc).symm.trans hp))
          exact .inr (.inr ⟨p, by rw [stays .outside hne hpc]; rfl⟩)
    asked := fun p s hps => by
      replace hps : (update sys.procs pid .outside p).wake = .waiting s ∨
        (update sys.procs pid .outside p).wake = .woken s := hps
      by_cases hne : p = pid
      · rw [hne, update_self] at hps
        exact hps.elim nofun nofun
      · rw [update_of_ne hne] at hps
        cases hq : sys.procs p with
        | outside => rw [hq] at hps; exact hps.elim nofun nofun
        | holding c => rw [hq] at hps; exact hps.elim nofun nofun
        | waiting r =>
          rw [hq] at hps
          rcases hps with hno | heq
          · nomatch hno
          · exact ChanProc.woken.inj heq ▸ h.asked p r (.inl hq)
        | woken r =>
          rw [hq] at hps
          rcases hps with hno | heq
          · nomatch hno
          · exact ChanProc.woken.inj heq ▸ h.asked p r (.inr hq)
    calm := h.calm
    attended := fun p s hps => by
      -- nobody waits any more
      replace hps : (update sys.procs pid .outside p).wake = .waiting s := hps
      revert hps
      cases update sys.procs pid .outside p with
      | _ => nofun }

theorem inv_of_borrow (hlt : ch < sys.table.rpcNumChannels)
    (hidle : (sys.table.channels ch).state.busy = false) :
    ChanInv cfg { sys with table := sys.table.borrow ch, closing := ch :: sys.closing } := by
  have hnotheld : ∀ p, sys.procs p ≠ .holding ch := fun p hp => by
    have hst := (h.held p ch hp).2.1
    rw [hidle] at hst
    exact absurd hst (by decide)
  have hnotclosing : ch ∉ sys.closing := fun hmem => by
    rw [(h.closing ch hmem).2] at hidle
    exact absurd hidle (by decide)
  have hfree : (sys.table.channels ch).state = chanFree := by
    rcases h.known ch hlt with hf | hmem | ⟨p, hp⟩
    · exact hf
    · exact absurd hmem hnotclosing
    · exact absurd hp (hnotheld p)
  have hnew : ({ (sys.table.channels ch).state with busy := true } : ChanState) = { chanFree with busy := true } := by
    rw [hfree]
  have hbusy : ({ chanFree with busy := true } : ChanState) ≠ chanFree := by decide
  exact {
    counted := by
      have hc := counted_set ch { sys.table.channels ch with
        state := { (sys.table.channels ch).state with busy := true } } h.counted
      rw [if_neg (fun hx => hbusy (hnew.symm.trans hx.2)), if_pos ⟨hlt, hfree⟩] at hc
      exact hc
    held := fun p c hpc =>
      have hcc : c ≠ ch := fun heq => hnotheld p (heq ▸ hpc)
      held_elsewhere h hcc hpc fun hno hmem => (mem_cons.1 hmem).elim hcc hno
    apart := h.apart
    closing := fun c hc => by
      show c < sys.table.rpcNumChannels ∧ ((sys.table.set ch _).channels c).state = _
      by_cases hcc : c = ch
      · rw [hcc, set_self]
        exact ⟨hlt, hnew⟩
      · rw [set_other _ _ hcc]
        exact h.closing c ((mem_cons.1 hc).resolve_left hcc)
    nodup := nodup_cons.2 ⟨hnotclosing, h.nodup⟩
    known := fun c hc => by
      show ((sys.table.set ch _).channels c).state = chanFree ∨ c ∈ ch :: sys.closing ∨ _
      by_cases hcc : c = ch
      · exact .inr (.inl (hcc ▸ mem_cons_self))
      · rw [set_other _ _ hcc]
        rcases h.known c hc with hf | hmem | hp
        · exact .inl hf
        · exact .inr (.inl (mem_cons_of_mem ch hmem))
        · exact .inr (.inr hp)
    asked := h.asked
    calm := h.calm
    attended := fun p s hps => by
      have hs := h.asked p s (.inl hps)
      refine shut_of_taken (u := sys.table.borrow ch) (by omega) (h.attended p s hps) rfl ?_ rfl hlt hfree ?_ ?_ ?_
      · show sys.table.numFreeChannels - 1 ≤ sys.table.numFreeChannels
        omega
      · show ((sys.table.set ch _).channels ch).state ≠ chanFree
        rw [set_self]
        exact fun heq => hbusy (hnew.symm.trans heq)
      · show ((sys.table.set ch _).channels ch).serverID = _ ∨ _
        rw [set_self]
        exact .inl rfl
      · exact fun j hj => set_other _ _ hj }

theorem inv_of_giveBack (hmem : ch ∈ sys.closing)
    (hcare : sys.NoneServed cfg (sys.table.giveBack ch) sys.now) :
    ChanInv cfg { sys with table := sys.table.giveBack ch, closing := sys.closing.erase ch } := by
  obtain ⟨hlt, hstate⟩ := h.closing ch hmem
  have hold : (sys.table.channels ch).state ≠ chanFree := fun heq => by
    rw [hstate] at heq
    exact absurd heq (by decide)
  have hnew : ({ (sys.table.channels ch).state with busy := false } : ChanState) = chanFree := by
    rw [hstate]
    rfl
  have hnotheld : ∀ p, sys.procs p ≠ .holding ch := fun p hp => (h.held p ch hp).2.2.2.2 hmem
  exact {
    counted := by
      have hc := counted_set ch { sys.table.channels ch with
        state := { (sys.table.channels ch).state with busy := false } } h.counted
      rw [if_pos ⟨hlt, hnew⟩, if_neg (fun hx => hold hx.2)] at hc
      exact hc
    held := fun p c hpc =>
      held_elsewhere h (fun heq => hnotheld p (heq ▸ hpc)) hpc fun hno hc => hno (mem_of_mem_erase hc)
    apart := h.apart
    closing := fun c hc => by
      have hin := (h.nodup.mem_erase_iff).1 hc
      show c < sys.table.rpcNumChannels ∧ ((sys.table.set ch _).channels c).state = _
      rw [set_other _ _ hin.1]
      exact h.closing c hin.2
    nodup := h.nodup.erase ch
    known := fun c hc => by
      show ((sys.table.set ch _).channels c).state = chanFree ∨ c ∈ sys.closing.erase ch ∨ _
      by_cases hcc : c = ch
      · rw [hcc, set_self]
        exact .inl hnew
      · rw [set_other _ _ hcc]
        rcases h.known c hc with hf | hin | hp
        · exact .inl hf
        · exact .inr (.inl ((h.nodup.mem_erase_iff).2 ⟨hcc, hin⟩))
        · exact .inr (.inr hp)
    asked := h.asked
    calm := h.calm
    attended := fun p s hps i rebind => hcare p s i rebind hps }

theorem inv_of_marks {now : Nat} (hcare : sys.NoneServed cfg { sys.table with serverAllocState := states } now) :
    ChanInv cfg { sys with table := { sys.table with serverAllocState := states }, now := now } where
  counted := h.counted
  held := h.held
  apart := h.apart
  closing := h.closing
  nodup := h.nodup
  known := h.known
  asked := h.asked
  calm := h.calm
  attended := fun p s hps i rebind => hcare p s i rebind hps

theorem inv_of_attempt (hserver : 0 ≤ serverID)
    (hout : ∀ ch, sys.procs pid ≠ .holding ch) (hcare : sys.AllocCareful cfg serverID) :
    ChanInv cfg (sys.attempt cfg pid serverID) := by
  rw [ChanSystem.attempt]
  cases hchoice : sys.choice cfg serverID with
  | wait => exact inv_of_wait h hserver hout hchoice
  | panic => exact absurd hchoice (choice_ne_panic h hserver hcare)
  | take i rebind => exact inv_of_take h hserver hout hcare hchoice

theorem chanInv_of_step (hneg : cfg.channelNegAcks = true) {l : ChanLabel} {sys' : ChanSystem}
    (hcare : sys.Careful cfg l) (hs : sys.step cfg l = some sys') : ChanInv cfg sys' := by
  have hcalm : ¬ sys.panicked = true := by rw [h.calm]; exact Bool.false_ne_true
  rw [ChanSystem.step.eq_def, if_neg hcalm] at hs
  cases l with
  | alloc pid serverID =>
    dsimp only at hs
    split at hs
    · rename_i hguard
      cases hs
      exact inv_of_attempt h hguard.2 (fun ch hp => nomatch hguard.1.symm.trans hp) hcare
    · nomatch hs
  | retry pid =>
    dsimp only at hs
    split at hs
    · rename_i serverID hp
      cases hs
      exact inv_of_attempt h (h.asked pid serverID (.inr hp)) (fun ch hq => nomatch hp.symm.trans hq) (hcare serverID hp)
    · nomatch hs
  | setup pid =>
    dsimp only at hs
    split at hs
    · rename_i ch hp
      cases hs
      exact inv_of_use h hp rfl rfl rfl
    · nomatch hs
  | work pid bits =>
    dsimp only at hs
    split at hs
    · rename_i ch hp
      cases hs
      exact inv_of_use h hp rfl rfl rfl
    · nomatch hs
  | free pid =>
    dsimp only at hs
    split at hs
    · rename_i ch hp
      cases hs
      exact inv_of_free h hneg hp
    · nomatch hs
  | close ch =>
    dsimp only at hs
    split at hs
    · rename_i hlt
      split at hs
      · exact Option.some.inj hs ▸ h
      · rename_i hidle
        cases hs
        exact inv_of_borrow h hlt (by simpa using hidle)
    · nomatch hs
  | closed ch =>
    dsimp only at hs
    split at hs
    · rename_i hmem
      cases hs
      exact inv_of_giveBack h hmem hcare
    · nomatch hs
  | setAllocState serverID trouble =>
    dsimp only at hs
    split at hs
    · cases hs
      exact inv_of_marks h hcare
    · nomatch hs
  | tick =>
    cases hs
    have hlater : ChanInv cfg { sys with
        table := { sys.table with serverAllocState := sys.table.serverAllocState }, now := sys.now + 1 } :=
      inv_of_marks h hcare
    exact hlater

end

end invariant

structure ChannelsSound (cfg : ChanConfig) (sys : ChanSystem) : Prop where
  numFree : sys.table.numFreeChannels =
    ((Finset.range sys.table.rpcNumChannels).filter (fun i => (sys.table.channels i).state = chanFree)).card
  apart : ∀ pid pid' ch, sys.procs pid = .holding ch → sys.procs pid' = .holding ch → pid = pid'
  notClosing : ∀ pid ch, sys.procs pid = .holding ch → ch ∉ sys.closing
  calm : sys.panicked = false
  noneServed : sys.NoneServed cfg sys.table sys.now

theorem sound_of_inv {cfg : ChanConfig} {sys : ChanSystem} (h : ChanInv cfg sys) : ChannelsSound cfg sys where
  numFree := h.counted.count_range
  apart := h.apart
  notClosing := fun pid ch hp => (h.held pid ch hp).2.2.2.2
  calm := h.calm
  noneServed := fun pid serverID i rebind hp => h.attended pid serverID hp i rebind

/-- **The channels are sound** in every run of careful steps. -/
theorem channels_sound (cfg : ChanConfig) (hneg : cfg.channelNegAcks = true) (n : Nat) (memory : Nat → RpcClientChannel)
    {sys : ChanSystem} (hrun : Run (ChanSystem.step cfg) (ChanSystem.Careful cfg) (ChanSystem.initial n memory) sys) :
    ChannelsSound cfg sys :=
  sound_of_inv (hrun.invariant (fun _ _ _ h hcare hs => chanInv_of_step h hneg hcare hs) (initial_chanInv cfg n memory))

/-- A channel in memory that was never written. -/
def blankChannel : RpcClientChannel where
  index := 0
  state := {}
  serverID := 0
  fragsDelivered := 0
  fragsReceived := 0
  actualDataSize := 0
  actualParamSize := 0
  requestRpcHdr := ⟨0, 0, 0, 0, 0, 0, 0, 0, 0, 0, 0, 0, 0, 0, 0, 0⟩
  request := ⟨fun _ => 0, 0, fun _ => 0, 0⟩
  reply := ⟨⟨0, 0, 0, 0, 0, 0, 0, 0, 0, 0, 0, 0, 0, 0, 0, 0⟩, 0, fun _ => 0, 0, fun _ => 0⟩

def twoChannels : ChanSystem := ChanSystem.initial 2 (fun _ => blankChannel)

def tenSeconds : ChanConfig := ⟨10, true⟩

/-- A process calls server 7 and is done. -/
theorem one_call_sound :
    ∃ sys, exec (ChanSystem.step tenSeconds) twoChannels [.alloc 0 7, .setup 0, .free 0] = some sys ∧
      ChannelsSound tenSeconds sys := by
  have halloc : ChanSystem.AllocCareful tenSeconds twoChannels 7 := by
    intro _
    exact ⟨0, by decide, rfl, .inl rfl⟩
  refine ⟨_, rfl, channels_sound tenSeconds rfl 2 (fun _ => blankChannel) ?_⟩
  exact (((Run.refl _ _).snoc (l := ChanLabel.alloc 0 7) halloc rfl).snoc (l := ChanLabel.setup 0) trivial rfl).snoc
    (l := ChanLabel.free 0) trivial rfl

/-- A free channel is passed by, and the panic reached; a process is not told of a channel; one in use is allocated. -/
theorem channels_lost :
    (∃ sys, Run (ChanSystem.step tenSeconds) (fun _ _ => True) twoChannels sys ∧ sys.panicked = true) ∧
    (∃ sys, Run (ChanSystem.step tenSeconds) (fun _ _ => True) (ChanSystem.initial 1 (fun _ => blankChannel)) sys ∧
      sys.procs 0 = .waiting 7 ∧ sys.closing = [] ∧ sys.choice tenSeconds 7 = .take 0 true) ∧
    ∃ sys, Run (ChanSystem.step tenSeconds) (fun _ _ => True) twoChannels sys ∧
      sys.procs 0 = .holding 0 ∧ 0 ∈ sys.closing := by
  refine ⟨⟨_, run_of_exec (A := fun _ => True)
      [.alloc 0 7, .alloc 1 7, .free 1, .setAllocState 7 true, .alloc 1 7] _ _ (fun _ _ => trivial) rfl, rfl⟩, ?_, ?_⟩
  · refine ⟨_, run_of_exec (A := fun _ => True) [.close 0, .alloc 0 7, .closed 0] _ _ (fun _ _ => trivial) rfl, ?_⟩
    exact ⟨rfl, rfl, rfl⟩
  · refine ⟨_, run_of_exec (A := fun _ => True) [.setAllocState 7 true, .close 0, .alloc 0 7] _ _
      (fun _ _ => trivial) rfl, rfl, ?_⟩
    exact mem_cons_self

end SpriteKernel.Rpc
