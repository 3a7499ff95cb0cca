import SpriteKernel.Lib.Update
import SpriteKernel.Rpc.Client

/- Allocating the channels of a client (`RpcChanAlloc`, `RpcChanFree` and
   `RpcChanClose`, rpcCall.c). A definition is what is done under one hold of
   `rpcMutex`. -/
namespace SpriteKernel.Rpc

open List
open Machine

/-- A congested server and the time it was marked; -1 in an unused entry. -/
structure UnhappyServer where
  serverID : Int
  time : Nat
  deriving DecidableEq

/-- The channels, `rpcChannelPtrPtr`, and what their allocation goes by. -/
structure ChannelTable where
  channels : Nat → RpcClientChannel
  rpcNumChannels : Nat
  numFreeChannels : Int
  serverAllocState : List UnhappyServer
  rpcID : Nat

def ChannelTable.set (t : ChannelTable) (i : Nat) (chan : RpcClientChannel) : ChannelTable :=
  { t with channels := Function.update t.channels i chan }

/-- `GetChannelAllocState`: since when the server is marked. -/
def getChannelAllocState (states : List UnhappyServer) (serverID : Int) : Option Nat :=
  (states.find? (fun u => u.serverID = serverID)).map (fun u => u.time)

/-- The entry that `SetChannelAllocStateInt` changes. -/
def allocStateSpot (states : List UnhappyServer) (serverID : Int) (trouble : Bool) : Option Nat :=
  match states.findIdx? (fun u => u.serverID = serverID) with
  | some i => some i
  | none => if trouble then states.findIdx? (fun u => u.serverID = -1) else none

def setChannelAllocStateInt (now : Nat) (serverID : Int) (trouble : Bool) (states : List UnhappyServer) :
    List UnhappyServer :=
  match allocStateSpot states serverID trouble with
  | some i =>
    if trouble then states.set i ⟨serverID, now⟩ else states.modify i (fun u => { u with serverID := -1 })
  -- there is nothing to clear, or no more room to keep track of congested servers
  | none => states

/-- The server is marked as congested, and not too long ago. -/
def ChannelTable.congested (t : ChannelTable) (channelStateInterval now : Nat) (serverID : Int) : Bool :=
  match getChannelAllocState t.serverAllocState serverID with
  | some time => time + channelStateInterval ≥ now
  | none => false

/-- The lowest channel with a property. -/
def ChannelTable.first (t : ChannelTable) (p : RpcClientChannel → Bool) : Option Nat :=
  (List.range t.rpcNumChannels).find? (fun i => p (t.channels i))

def uintMax : Nat := 4294967295

/-- A free channel that was last used with another server. -/
def RpcClientChannel.Reusable (chan : RpcClientChannel) (serverID : Int) : Prop :=
  chan.state = chanFree ∧ chan.serverID ≠ -1 ∧ chan.serverID ≠ serverID

instance (chan : RpcClientChannel) (serverID : Int) : Decidable (chan.Reusable serverID) :=
  inferInstanceAs (Decidable (_ ∧ _))

/-- A round of the loop for the channel with the smallest ID, `smallestID` so far. -/
def ChannelTable.smaller (t : ChannelTable) (serverID : Int) (firstFree : Option Nat) (i : Nat) : Option Nat :=
  let smallestID := firstFree.elim uintMax (fun j => (t.channels j).requestRpcHdr.ID)
  if (t.channels i).Reusable serverID ∧ (t.channels i).requestRpcHdr.ID < smallestID then some i else firstFree

/-- The least recently used of the free channels of other servers. -/
def ChannelTable.leastRecent (t : ChannelTable) (serverID : Int) : Option Nat :=
  (List.range t.rpcNumChannels).foldl (t.smaller serverID) none

/-- `RpcChanAlloc` waits for a channel, panics, or takes one, bound to the server already or from now on. -/
inductive Choice where
  | wait
  | panic
  | take (i : Nat) (rebind : Bool)
  deriving DecidableEq

/-- There is no free channel of the server, or none that may be used. -/
def chooseOther (firstUnused firstFree : Option Nat) : Choice :=
  match firstUnused with
  | some i => .take i true
  | none =>
    match firstFree with
    | some i => .take i true
    | none => .panic

def ChannelTable.congestedChoice (t : ChannelTable) (serverID : Int) : Choice :=
  let firstFreeMatch := t.first (fun c => c.serverID = serverID ∧ c.state = chanFree)
  let firstBusy := t.first (fun c => c.serverID = serverID ∧ c.state ≠ chanFree)
  -- whether an unused channel is free is not looked at
  let firstUnused := t.first (fun c => c.serverID ≠ serverID ∧ c.serverID = -1)
  let firstFree := t.first (fun c => c.Reusable serverID)
  let other :=
    match firstBusy with
    | some busy => if busy > 0 then .wait else chooseOther firstUnused firstFree
    | none => chooseOther firstUnused firstFree
  match firstFreeMatch with
  | some i =>
    match firstBusy with
    | some busy => if busy > i then .take i false else other
    | none => .take i false
  | none => other

def ChannelTable.plainChoice (t : ChannelTable) (serverID : Int) : Choice :=
  match t.first (fun c => c.state = chanFree ∧ c.serverID ≠ -1 ∧ c.serverID = serverID) with
  | some i => .take i false
  | none => chooseOther (t.first (fun c => c.state = chanFree ∧ c.serverID = -1)) (t.leastRecent serverID)

/-- `RpcChanAlloc`, up to the wait or the allocation. -/
def ChannelTable.choice (t : ChannelTable) (channelStateInterval now : Nat) (serverID : Int) : Choice :=
  if t.numFreeChannels < 1 then .wait
  else if t.congested channelStateInterval now serverID then t.congestedChoice serverID
  else t.plainChoice serverID

/-- The mark of a server that is not congested any more is taken away. -/
def ChannelTable.settle (t : ChannelTable) (channelStateInterval now : Nat) (serverID : Int) : ChannelTable :=
  if t.congested channelStateInterval now serverID then t
  else { t with serverAllocState := setChannelAllocStateInt now serverID false t.serverAllocState }

/-- Channel `i` is allocated. -/
def ChannelTable.allocate (t : ChannelTable) (serverID : Int) (i : Nat) (rebind : Bool) : ChannelTable :=
  let chan := t.channels i
  { t.set i { chan with state := chanBusy, serverID := if rebind then serverID else chan.serverID } with
    numFreeChannels := t.numFreeChannels - 1 }

/-- `RpcChanFree` of a channel that is not free. -/
def ChannelTable.free (t : ChannelTable) (i : Nat) : ChannelTable :=
  { t.set i { t.channels i with state := chanFree } with numFreeChannels := t.numFreeChannels + 1 }

/-- `RpcChanClose` takes a channel that is not busy. -/
def ChannelTable.borrow (t : ChannelTable) (i : Nat) : ChannelTable :=
  let chan := t.channels i
  { t.set i { chan with state := { chan.state with busy := true } } with numFreeChannels := t.numFreeChannels - 1 }

/-- `RpcChanClose` has sent its acknowledgment. Nobody is told that the channel is back. -/
def ChannelTable.giveBack (t : ChannelTable) (i : Nat) : ChannelTable :=
  let chan := t.channels i
  { t.set i { chan with state := { chan.state with busy := false } } with numFreeChannels := t.numFreeChannels + 1 }

/-- The table that `Rpc_Init` makes, with channels in memory that holds anything. -/
def ChannelTable.initial (rpcNumChannels : Nat) (memory : Nat → RpcClientChannel) : ChannelTable where
  channels := fun i => { memory i with state := chanFree, index := i, serverID := -1 }
  rpcNumChannels := rpcNumChannels
  numFreeChannels := rpcNumChannels
  serverAllocState := List.replicate 8 ⟨-1, 0⟩
  rpcID := 1

/-! What the loops find. -/

variable {t : ChannelTable} {p : RpcClientChannel → Bool} {i : Nat}

theorem first_some : t.first p = some i ↔
      i < t.rpcNumChannels ∧ p (t.channels i) = true ∧ ∀ j < i, p (t.channels j) = false := by
  rw [ChannelTable.first, List.find?_range_eq_some]
  constructor
  · rintro ⟨hp, hi, hbefore⟩
    exact ⟨mem_range.1 hi, hp, fun j hj => by simpa using hbefore j hj⟩
  · rintro ⟨hi, hp, hbefore⟩
    exact ⟨hp, mem_range.2 hi, fun j hj => by simpa using hbefore j hj⟩

theorem first_none : t.first p = none ↔ ∀ i < t.rpcNumChannels, p (t.channels i) = false := by
  rw [ChannelTable.first, List.find?_eq_none]
  simp only [mem_range, Bool.not_eq_true]

theorem foldl_smaller (t : ChannelTable) (serverID : Int) : ∀ (l : List Nat) (acc : Option Nat),
    (∀ i, l.foldl (t.smaller serverID) acc = some i → acc = some i ∨ i ∈ l ∧ (t.channels i).Reusable serverID) ∧
    (l.foldl (t.smaller serverID) acc = none ↔
      acc = none ∧ ∀ i ∈ l, (t.channels i).Reusable serverID → uintMax ≤ (t.channels i).requestRpcHdr.ID)
  | [], acc => ⟨fun i h => .inl h, by simp⟩
  | i :: l, acc => by
    obtain ⟨hsome, hnone⟩ := foldl_smaller t serverID l (t.smaller serverID acc i)
    rw [foldl_cons]
    refine ⟨fun j hj => ?_, ?_⟩
    · rcases hsome j hj with hacc | ⟨hj, hr⟩
      · rw [ChannelTable.smaller] at hacc
        split at hacc
        · rename_i hi
          rw [Option.some.injEq] at hacc
          exact .inr ⟨hacc ▸ mem_cons_self, hacc ▸ hi.1⟩
        · exact .inl hacc
      · exact .inr ⟨mem_cons_of_mem i hj, hr⟩
    · rw [hnone, ChannelTable.smaller]
      constructor
      · rintro ⟨hacc, hl⟩
        split at hacc
        · exact absurd hacc (by simp)
        · rename_i hi
          subst hacc
          refine ⟨rfl, forall_mem_cons.2 ⟨fun hr => ?_, hl⟩⟩
          exact not_lt.1 (fun hlt => hi ⟨hr, hlt⟩)
      · rintro ⟨rfl, hl⟩
        obtain ⟨hi, hl⟩ := forall_mem_cons.1 hl
        refine ⟨if_neg (fun h => ?_), hl⟩
        exact absurd h.2 (not_lt.2 (hi h.1))

theorem leastRecent_some {serverID : Int} (h : t.leastRecent serverID = some i) :
    i < t.rpcNumChannels ∧ (t.channels i).Reusable serverID := by
  rcases (foldl_smaller t serverID _ none).1 i h with hno | ⟨hi, hr⟩
  · exact absurd hno (by simp)
  · exact ⟨mem_range.1 hi, hr⟩

theorem leastRecent_none {serverID : Int} : t.leastRecent serverID = none ↔
      ∀ i < t.rpcNumChannels, (t.channels i).Reusable serverID → uintMax ≤ (t.channels i).requestRpcHdr.ID := by
  rw [ChannelTable.leastRecent, (foldl_smaller t serverID _ none).2]
  simp only [true_and, mem_range]

theorem find_modify {α : Type} (p : α → Bool) (f : α → α) : ∀ (l : List α) (i : Nat),
    (∀ x, l[i]? = some x → p x = false ∧ p (f x) = false) → (l.modify i f).find? p = l.find? p
  | [], i, _ => by rw [modify_nil]
  | x :: l, 0, h => by
    obtain ⟨hx, hfx⟩ := h x rfl
    rw [modify_zero_cons, List.find?_cons_of_neg (by simp [hfx]), List.find?_cons_of_neg (by simp [hx])]
  | x :: l, i + 1, h => by
    rw [modify_succ_cons, List.find?_cons, List.find?_cons, find_modify p f l i h]

/-! What is chosen for a server. -/

section choice
variable {t : ChannelTable} {serverID : Int} {firstUnused firstFree : Option Nat}

def ChannelTable.Lowest (t : ChannelTable) (serverID : Int) (k : Nat) : Prop :=
  t.first (fun c => c.serverID = serverID) = some k

theorem lowest_iff {k : Nat} : t.Lowest serverID k ↔
    k < t.rpcNumChannels ∧ (t.channels k).serverID = serverID ∧ ∀ j < k, (t.channels j).serverID ≠ serverID := by
  rw [ChannelTable.Lowest, first_some]
  simp only [decide_eq_true_eq, decide_eq_false_iff_not, ne_eq]

theorem exists_lowest (hi : i < t.rpcNumChannels) (hserver : (t.channels i).serverID = serverID) :
    ∃ k ≤ i, t.Lowest serverID k := by
  cases hk : t.first (fun c => c.serverID = serverID) with
  | none =>
    have hno := first_none.1 hk i hi
    exact absurd hserver (by simpa using hno)
  | some k =>
    refine ⟨k, ?_, hk⟩
    by_contra hlt
    exact (lowest_iff.1 hk).2.2 i (by omega) hserver

/-- The other channels that the congested case comes to. -/
def ChannelTable.otherChoice (t : ChannelTable) (serverID : Int) : Choice :=
  chooseOther (t.first (fun c => c.serverID ≠ serverID ∧ c.serverID = -1)) (t.first (fun c => c.Reusable serverID))

theorem congested_lowest {k : Nat} (h : t.Lowest serverID k) :
    t.congestedChoice serverID =
      if (t.channels k).state = chanFree then .take k false else if k > 0 then .wait else t.otherChoice serverID := by
  obtain ⟨hk, hserver, hbelow⟩ := lowest_iff.1 h
  have hno : ∀ j < k, ∀ b : Prop, [Decidable b] → decide ((t.channels j).serverID = serverID ∧ b) = false := by
    intro j hj b _
    simp [hbelow j hj]
  rw [ChannelTable.congestedChoice]
  by_cases hstate : (t.channels k).state = chanFree
  · rw [if_pos hstate]
    have hmatch : t.first (fun c => c.serverID = serverID ∧ c.state = chanFree) = some k :=
      first_some.2 ⟨hk, by simp [hserver, hstate], fun j hj => hno j hj _⟩
    rw [hmatch]
    cases hbusy : t.first (fun c => c.serverID = serverID ∧ c.state ≠ chanFree) with
    | none => rfl
    | some b =>
      obtain ⟨-, hb, -⟩ := first_some.1 hbusy
      have hb' : (t.channels b).serverID = serverID ∧ (t.channels b).state ≠ chanFree := by simpa using hb
      have hgt : b > k := by
        by_contra hle
        rcases Nat.lt_or_eq_of_le (Nat.le_of_not_lt hle) with hlt | rfl
        · exact hbelow b hlt hb'.1
        · exact hb'.2 hstate
      exact if_pos hgt
  · rw [if_neg hstate]
    have hbusy : t.first (fun c => c.serverID = serverID ∧ c.state ≠ chanFree) = some k :=
      first_some.2 ⟨hk, by simp [hserver, hstate], fun j hj => hno j hj _⟩
    rw [hbusy]
    cases hmatch : t.first (fun c => c.serverID = serverID ∧ c.state = chanFree) with
    | none => rfl
    | some i =>
      obtain ⟨-, hi, -⟩ := first_some.1 hmatch
      have hi' : (t.channels i).serverID = serverID ∧ (t.channels i).state = chanFree := by simpa using hi
      have hle : ¬ k > i := fun hgt => hbelow i hgt hi'.1
      exact if_neg hle

theorem congested_unbound (h : ∀ k, ¬ t.Lowest serverID k) : t.congestedChoice serverID = t.otherChoice serverID := by
  have hno : ∀ i < t.rpcNumChannels, (t.channels i).serverID ≠ serverID := by
    intro i hi hserver
    obtain ⟨k, -, hk⟩ := exists_lowest hi hserver
    exact h k hk
  have hmatch : t.first (fun c => c.serverID = serverID ∧ c.state = chanFree) = none :=
    first_none.2 (fun i hi => by simp [hno i hi])
  have hbusy : t.first (fun c => c.serverID = serverID ∧ c.state ≠ chanFree) = none :=
    first_none.2 (fun i hi => by simp [hno i hi])
  rw [ChannelTable.congestedChoice, hmatch, hbusy]
  rfl

theorem chooseOther_take {rebind : Bool} (h : chooseOther firstUnused firstFree = .take i rebind) :
    rebind = true ∧ (firstUnused = some i ∨ firstUnused = none ∧ firstFree = some i) := by
  cases firstUnused with
  | some j =>
    obtain ⟨rfl, rfl⟩ := Choice.take.inj h
    exact ⟨rfl, .inl rfl⟩
  | none =>
    cases firstFree with
    | some j =>
      obtain ⟨rfl, rfl⟩ := Choice.take.inj h
      exact ⟨rfl, .inr ⟨rfl, rfl⟩⟩
    | none => nomatch h

theorem chooseOther_none
    (h : ∀ i, chooseOther firstUnused firstFree ≠ .take i true) : firstUnused = none ∧ firstFree = none := by
  cases firstUnused with
  | some i => exact absurd rfl (h i)
  | none =>
    cases firstFree with
    | some i => exact absurd rfl (h i)
    | none => exact ⟨rfl, rfl⟩

end choice

end SpriteKernel.Rpc
