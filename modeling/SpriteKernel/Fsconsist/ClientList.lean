import SpriteKernel.Fs.Types
import SpriteKernel.Lib.KeyedList

/- The client list of an I/O handle (`fsconsistIOClient.c`): which hosts use the object and how. Entries are found by
   client ID, and the traversals of `fsconsistCache.c` hold on to them by address, which an entry therefore carries.
   Statistics and the master list, compiled out, are not kept. -/
namespace SpriteKernel.Fsconsist

open List

open SpriteKernel KeyedList

/-- Where the kernel stops. -/
inductive Panic where
  /-- `ClientCommand`: "consist flag not set". -/
  | consistFlagNotSet
  /-- `ClientCommand`: the handle is not a local file. -/
  | badStreamType
  /-- `Fsconsist_FetchDirtyBlocks`: "Non last writer in list". -/
  | nonLastWriter
  /-- A use count is below zero. -/
  | badUseCounts
  /-- No panic of the source: freed memory is used. -/
  | danglingPointer
  deriving DecidableEq, Repr

/-- `Fsconsist_ClientInfo`, and the address it is at. -/
structure ClientInfo where
  ptr : Nat
  clientID : HostId
  use : UseCounts
  cached : Bool
  openTimeStamp : Nat
  locked : Bool
  mapped : Bool
  deriving DecidableEq, Repr

namespace ClientInfo

def setUse (use : UseCounts) (c : ClientInfo) : ClientInfo := { c with use := use }

def setCached (cached : Bool) (c : ClientInfo) : ClientInfo := { c with cached := cached }

def setOpenTimeStamp (stamp : Nat) (c : ClientInfo) : ClientInfo := { c with openTimeStamp := stamp }

def setLocked (locked : Bool) (c : ClientInfo) : ClientInfo := { c with locked := locked }

end ClientInfo

abbrev ClientList := List ClientInfo

namespace ClientList

def client (clientID : HostId) (l : ClientList) : Option ClientInfo :=
  l.find? (fun c => c.clientID == clientID)

/-- Change the entry of a client. -/
def updateClient (clientID : HostId) (f : ClientInfo → ClientInfo) (l : ClientList) : ClientList :=
  updateFirst (fun c => c.clientID == clientID) f l

/-- Change the entry at an address. -/
def updateAt (ptr : Nat) (f : ClientInfo → ClientInfo) (l : ClientList) : ClientList :=
  updateFirst (fun c => c.ptr == ptr) f l

/-- `INSERT_CLIENT`, with the address `malloc` returns. -/
def insertClient (fresh : Nat) (clientID : HostId) (l : ClientList) : ClientList :=
  { ptr := fresh, clientID := clientID, use := 0, cached := false, openTimeStamp := 0, locked := false,
    mapped := false } :: l

/-- `REMOVE_CLIENT` of the entry a search by client ID found. -/
def removeClient (clientID : HostId) (l : ClientList) : ClientList :=
  l.eraseP (fun c => c.clientID == clientID)

/-- `REMOVE_CLIENT` of the entry at an address. -/
def removeAt (ptr : Nat) (l : ClientList) : ClientList := l.eraseP (fun c => c.ptr == ptr)

/-- The list after the search that inserts the client if it is not there. -/
def findOrInsert (fresh : Nat) (clientID : HostId) (l : ClientList) : ClientList :=
  match l.client clientID with
  | some _ => l
  | none => l.insertClient fresh clientID

def ioClientOpen (fresh : Nat) (clientID : HostId) (useFlags : UseFlags) (cached : Bool)
    (l : ClientList) : ClientList :=
  (l.findOrInsert fresh clientID).updateClient clientID
    (fun c => (c.setCached cached).setUse (c.use + UseCounts.ofFlags useFlags))

/-- What `Fsconsist_IOClientClose` returns, stores in `*cachePtr` and leaves. -/
structure CloseResult where
  found : Bool
  cache : Bool
  list : ClientList
  deriving DecidableEq, Repr

/-- `Fsconsist_IOClientClose`. The second panic is marked "(probably)
continuable"; here it stops too. -/
def ioClientClose (clientID : HostId) (flags : UseFlags) (cache : Bool) (l : ClientList) :
    Except Panic CloseResult :=
  match l.client clientID with
  | none => .ok ⟨false, cache, l⟩
  | some c =>
    if c.use.negative then .error .badUseCounts
    else
      let use := c.use - UseCounts.ofFlags flags
      if use.negative then .error .badUseCounts
      else if (!cache || !c.cached) && use.ref == 0 && !c.locked then
        .ok ⟨true, c.cached, l.removeClient clientID⟩
      else .ok ⟨true, c.cached, l.updateClient clientID (.setUse use)⟩

/-- `Fsconsist_IOClientKill`: the counts the client had, and the list left. -/
def ioClientKill (clientID : HostId) (l : ClientList) : UseCounts × ClientList :=
  match l.client clientID with
  | none => (0, l)
  | some c =>
    (c.use,
      if c.locked then l.updateClient clientID (.setUse 0)
      else l.removeClient clientID)

/-! ## Well-formed lists -/

/-- One entry a client, one entry an address, every address handed out. -/
structure Wf (fresh : Nat) (l : ClientList) : Prop where
  ids : (l.map ClientInfo.clientID).Nodup
  ptrs : (l.map ClientInfo.ptr).Nodup
  old : ∀ c ∈ l, c.ptr < fresh

theorem Wf.nil (fresh : Nat) : Wf fresh [] := ⟨by simp, by simp, by simp⟩

variable {fresh : Nat} {l l' : ClientList}

theorem Wf.mono {fresh' : Nat} (h : Wf fresh l) (hf : fresh ≤ fresh') : Wf fresh' l :=
  ⟨h.ids, h.ptrs, fun c hc => Nat.lt_of_lt_of_le (h.old c hc) hf⟩

theorem Wf.of_maps (h : Wf fresh l) (hids : l'.map ClientInfo.clientID = l.map ClientInfo.clientID)
    (hptrs : l'.map ClientInfo.ptr = l.map ClientInfo.ptr) : Wf fresh l' := by
  refine ⟨hids ▸ h.ids, hptrs ▸ h.ptrs, fun c hc => ?_⟩
  have hmem : c.ptr ∈ l.map ClientInfo.ptr := hptrs ▸ mem_map_of_mem hc
  obtain ⟨d, hd, hdc⟩ := mem_map.mp hmem
  exact hdc ▸ h.old d hd

theorem Wf.sublist (h : Wf fresh l) (hs : List.Sublist l' l) : Wf fresh l' :=
  ⟨h.ids.sublist (hs.map _), h.ptrs.sublist (hs.map _), fun c hc => h.old c (hs.subset hc)⟩

/-- An update that keeps who the entry is and where it is. -/
def KeepsKeys (f : ClientInfo → ClientInfo) : Prop :=
  ∀ c, (f c).clientID = c.clientID ∧ (f c).ptr = c.ptr

theorem keepsKeys_setUse (use : UseCounts) : KeepsKeys (.setUse use) := fun _ => ⟨rfl, rfl⟩

theorem keepsKeys_setCached (cached : Bool) : KeepsKeys (.setCached cached) := fun _ => ⟨rfl, rfl⟩

theorem keepsKeys_setLocked (locked : Bool) : KeepsKeys (.setLocked locked) := fun _ => ⟨rfl, rfl⟩

theorem keepsKeys_setOpenTimeStamp (stamp : Nat) : KeepsKeys (.setOpenTimeStamp stamp) :=
  fun _ => ⟨rfl, rfl⟩

theorem keepsKeys_open (useFlags : UseFlags) (cached : Bool) :
    KeepsKeys (fun c => (c.setCached cached).setUse (c.use + UseCounts.ofFlags useFlags)) :=
  fun _ => ⟨rfl, rfl⟩

variable {clientID : HostId} {f : ClientInfo → ClientInfo} {c : ClientInfo}

theorem map_ptr_updateClient (hf : KeepsKeys f)
    (l : ClientList) : (l.updateClient clientID f).map ClientInfo.ptr = l.map ClientInfo.ptr :=
  map_updateFirst (fun c => (hf c).2) l

theorem map_ptr_updateAt {ptr : Nat} (hf : KeepsKeys f)
    (l : ClientList) : (l.updateAt ptr f).map ClientInfo.ptr = l.map ClientInfo.ptr :=
  map_updateFirst (fun c => (hf c).2) l

theorem Wf.updateClient (h : Wf fresh l) (clientID : HostId)
    (hf : KeepsKeys f) : Wf fresh (l.updateClient clientID f) :=
  h.of_maps (map_updateFirst (fun c => (hf c).1) l) (map_ptr_updateClient hf l)

theorem Wf.updateAt (h : Wf fresh l) (ptr : Nat) (hf : KeepsKeys f) : Wf fresh (l.updateAt ptr f) :=
  h.of_maps (map_updateFirst (fun c => (hf c).1) l) (map_ptr_updateAt hf l)

theorem Wf.removeClient (h : Wf fresh l) (clientID : HostId) : Wf fresh (l.removeClient clientID) :=
  h.sublist eraseP_sublist

theorem client_eq_none : l.client clientID = none ↔ ∀ c ∈ l, c.clientID ≠ clientID := by
  simp [client, List.find?_eq_none]

theorem client_eq_some (h : Wf fresh l) : l.client clientID = some c ↔ c ∈ l ∧ c.clientID = clientID := by
  constructor
  · intro hc
    exact ⟨mem_of_find?_eq_some hc, by simpa using List.find?_some hc⟩
  · rintro ⟨hc, rfl⟩
    exact find?_key_eq_some h.ids hc

theorem mem_of_client (h : l.client clientID = some c) : c ∈ l ∧ c.clientID = clientID :=
  ⟨mem_of_find?_eq_some h, by simpa using List.find?_some h⟩

theorem Wf.findOrInsert (h : Wf fresh l) (clientID : HostId) : Wf (fresh + 1) (l.findOrInsert fresh clientID) := by
  unfold ClientList.findOrInsert
  cases hc : l.client clientID with
  | some c => exact h.mono (Nat.le_succ fresh)
  | none =>
    have hno := client_eq_none.mp hc
    refine ⟨?_, ?_, ?_⟩
    · rw [insertClient, map_cons, nodup_cons]
      refine ⟨fun hmem => ?_, h.ids⟩
      obtain ⟨d, hd, hdc⟩ := mem_map.mp hmem
      exact hno d hd hdc
    · rw [insertClient, map_cons, nodup_cons]
      refine ⟨fun hmem => ?_, h.ptrs⟩
      obtain ⟨d, hd, hdc⟩ := mem_map.mp hmem
      exact absurd hdc (Nat.ne_of_lt (h.old d hd))
    · intro c hc
      rcases mem_cons.mp hc with rfl | hc
      · exact Nat.lt_succ_self fresh
      · exact Nat.lt_succ_of_lt (h.old c hc)

theorem Wf.ioClientOpen (h : Wf fresh l) (clientID : HostId)
    (useFlags : UseFlags) (cached : Bool) :
    Wf (fresh + 1) (l.ioClientOpen fresh clientID useFlags cached) :=
  (h.findOrInsert clientID).updateClient clientID (keepsKeys_open useFlags cached)

theorem Wf.ioClientKill (h : Wf fresh l) (clientID : HostId) : Wf fresh (l.ioClientKill clientID).2 := by
  unfold ClientList.ioClientKill
  cases l.client clientID with
  | none => exact h
  | some c =>
    simp only
    split
    · exact h.updateClient clientID (keepsKeys_setUse 0)
    · exact h.removeClient clientID

end ClientList

/-! ## Closing -/

theorem UseCounts.nonneg_of_not_negative {u : UseCounts} (h : u.negative = false) :
    0 ≤ u.ref ∧ 0 ≤ u.write ∧ 0 ≤ u.exec := by
  simp only [UseCounts.negative, Bool.or_eq_false_iff, decide_eq_false_iff_not] at h
  omega

/-- What `Fsconsist_IOClientClose` does to a client it knows. -/
theorem ioClientClose_spec {clientID : HostId} {flags : UseFlags} {cache : Bool} {l : ClientList}
    {r : ClientList.CloseResult} (h : l.ioClientClose clientID flags cache = .ok r) :
    (l.client clientID = none ∧ r = ⟨false, cache, l⟩) ∨
      ∃ c, l.client clientID = some c ∧ c.use.negative = false ∧
        (c.use - UseCounts.ofFlags flags).negative = false ∧ r.found = true ∧ r.cache = c.cached ∧
        (((!cache || !c.cached) && (c.use - UseCounts.ofFlags flags).ref == 0 && !c.locked) = true ∧
            r.list = l.removeClient clientID ∨
          ((!cache || !c.cached) && (c.use - UseCounts.ofFlags flags).ref == 0 && !c.locked) = false ∧
            r.list = l.updateClient clientID (.setUse (c.use - UseCounts.ofFlags flags))) := by
  unfold ClientList.ioClientClose at h
  cases hc : l.client clientID with
  | none =>
    rw [hc] at h
    exact .inl ⟨rfl, (Except.ok.inj h).symm⟩
  | some c =>
    rw [hc] at h
    simp only at h
    split at h
    · simp at h
    · next hneg =>
      split at h
      · simp at h
      · next hneg' =>
        refine .inr ⟨c, rfl, by simpa using hneg, by simpa using hneg', ?_⟩
        split at h
        · next hrem =>
          cases h
          exact ⟨rfl, rfl, .inl ⟨hrem, rfl⟩⟩
        · next hrem =>
          cases h
          exact ⟨rfl, rfl, .inr ⟨by simpa using hrem, rfl⟩⟩

end SpriteKernel.Fsconsist
