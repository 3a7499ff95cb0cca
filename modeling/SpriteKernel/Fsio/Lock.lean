import SpriteKernel.Fs.Types
import SpriteKernel.Lib.Transition
import SpriteKernel.Lib.KeyedList
import Mathlib.Data.List.Count

/- File locks (`fsioLock.c`). A lock is kept three times over: as flag bits, as the counter `numShared`, and as the
   list of owners by which the kernel breaks the locks of a stream closed or a host crashed. They agree as long as no
   close and no kill breaks a shared lock, which leaves the counter behind (`exclusion_of_run`). -/
namespace SpriteKernel.Fsio.Lock

open List

open SpriteKernel Transition KeyedList

/-- `IOC_LOCK_EXCLUSIVE` and `IOC_LOCK_SHARED` in a word of flags. -/
structure LockFlags where
  exclusive : Bool := false
  shared : Bool := false
  deriving DecidableEq, Repr

/-- `flags & ~other`. -/
def LockFlags.clear (f other : LockFlags) : LockFlags :=
  ⟨f.exclusive && !other.exclusive, f.shared && !other.shared⟩

structure IocLockArgs where
  flags : LockFlags
  hostID : HostId
  pid : Nat
  token : Nat
  deriving DecidableEq, Repr

structure LockOwner where
  hostID : HostId
  procID : Nat
  streamID : FileId
  flags : LockFlags
  deriving DecidableEq, Repr

structure RemoteWaiter where
  hostID : HostId
  pid : Nat
  waitToken : Nat
  deriving DecidableEq, Repr

structure LockState where
  waitList : List RemoteWaiter
  flags : LockFlags
  numShared : Int
  ownerList : List LockOwner
  deriving DecidableEq, Repr

def netNumSpriteHosts : Nat := 200

/-! ## The routines -/

/-- `Fsutil_FastWaitListInsert`: a process waits at most once, with its newest
token. -/
def waitListInsert (w : RemoteWaiter) (l : List RemoteWaiter) : List RemoteWaiter :=
  let sameProc := fun m : RemoteWaiter => m.pid == w.pid && m.hostID == w.hostID
  if l.any sameProc then updateFirst sameProc (fun m => { m with waitToken := w.waitToken }) l
  else l ++ [w]

/-- `Fsutil_FastWaitListNotify`: every waiter is woken and unlinked. -/
def waitListNotify (s : LockState) : LockState := { s with waitList := [] }

def lockInit : LockState := ⟨[], {}, 0, []⟩

/-- The owner record; `fresh` is what `malloc` left: with a `NIL` stream only the type of its stream ID is stored. -/
def newOwner (args : IocLockArgs) (streamIDPtr : Option FileId) (fresh : FileId) : LockOwner :=
  { hostID := args.hostID
    procID := args.pid
    streamID := match streamIDPtr with
      | some id => id
      | none => { fresh with type := -1 }
    flags := args.flags }

def lock (args : IocLockArgs) (streamIDPtr : Option FileId) (fresh : FileId) (s : LockState) :
    ReturnStatus × LockState :=
  let granted := fun s : LockState =>
    (ReturnStatus.success, { s with ownerList := s.ownerList ++ [newOwner args streamIDPtr fresh] })
  let blocked :=
    (ReturnStatus.fsWouldBlock,
      if args.hostID > netNumSpriteHosts then s
      else { s with waitList := waitListInsert ⟨args.hostID, args.pid, args.token⟩ s.waitList })
  if args.flags.exclusive then
    if s.flags.shared || s.flags.exclusive then blocked
    else granted { s with flags := { s.flags with exclusive := true } }
  else if args.flags.shared then
    if s.flags.exclusive then blocked
    else granted { s with flags := { s.flags with shared := true }, numShared := s.numShared + 1 }
  else (.genInvalidArg, s)

/-- The owner record is for this stream. The type of the ID is not compared. -/
def onStream (streamIDPtr : Option FileId) (o : LockOwner) : Bool :=
  match streamIDPtr with
  | none => false
  | some id =>
    o.streamID.major == id.major && o.streamID.minor == id.minor && o.streamID.serverID == id.serverID

/-- The owner an unlock by this process or on this stream looks for. -/
def ownedBy (args : IocLockArgs) (streamIDPtr : Option FileId) (o : LockOwner) : Bool :=
  o.procID == args.pid || onStream streamIDPtr o

def unlock (args : IocLockArgs) (streamIDPtr : Option FileId) (s : LockState) :
    ReturnStatus × LockState :=
  let mine := ownedBy args streamIDPtr
  if args.flags.exclusive then
    if s.flags.exclusive then
      let owners :=
        -- an unlock by a non-owner drops the first owner instead
        if s.ownerList.any mine then s.ownerList.eraseP mine else s.ownerList.tail
      (.success,
        waitListNotify { s with flags := { s.flags with exclusive := false }, ownerList := owners })
    else (.fsNoExclusiveLock, s)
  else if args.flags.shared then
    if s.flags.shared then
      let numShared := s.numShared - 1
      (.success,
        waitListNotify
          { s with
            numShared := numShared
            ownerList := s.ownerList.eraseP mine
            flags := { s.flags with shared := if numShared == 0 then false else s.flags.shared } })
    else (.fsNoSharedLock, s)
  else (.genInvalidArg, s)

def lockClose (streamIDPtr : Option FileId) (s : LockState) : LockState :=
  match s.ownerList.find? (onStream streamIDPtr) with
  | none => s
  | some o =>
    waitListNotify
      { s with
        flags := s.flags.clear o.flags
        ownerList := s.ownerList.eraseP (onStream streamIDPtr) }

/-- The loop of `Fsio_LockClientKill` over the owners to come: the flags and owners left, and whether a lock was
    broken. -/
def breakLocks (clientID : HostId) : LockFlags → List LockOwner → LockFlags × List LockOwner × Bool
  | flags, [] => (flags, [], false)
  | flags, o :: rest =>
    if o.hostID == clientID then
      let (flags', owners, _) := breakLocks clientID (flags.clear o.flags) rest
      (flags', owners, true)
    else
      let (flags', owners, breakLock) := breakLocks clientID flags rest
      (flags', o :: owners, breakLock)

def lockClientKill (clientID : HostId) (s : LockState) : LockState :=
  let (flags, owners, breakLock) := breakLocks clientID s.flags s.ownerList
  let s' := { s with flags := flags, ownerList := owners }
  if breakLock then waitListNotify s' else s'

/-! ## What the lock state should say -/

/-- The lock was granted as an exclusive one: `Fsio_Lock` tests this bit first. -/
def LockOwner.exclusive (o : LockOwner) : Bool := o.flags.exclusive

def LockOwner.shared (o : LockOwner) : Bool := o.flags.shared && !o.flags.exclusive

/-- The three copies agree, and an exclusive owner is the only owner. -/
structure Exclusion (s : LockState) : Prop where
  owners : (∃ o, s.ownerList = [o] ∧ o.exclusive = true) ∨ ∀ o ∈ s.ownerList, o.shared = true
  numShared : s.numShared = s.ownerList.countP LockOwner.shared
  sharedFlag : s.flags.shared = true ↔ ∃ o ∈ s.ownerList, o.shared = true
  exclusiveFlag : s.flags.exclusive = true ↔ ∃ o ∈ s.ownerList, o.exclusive = true

variable {o : LockOwner}

theorem LockOwner.exclusive_eq_false (h : o.shared = true) : o.exclusive = false := by
  simp only [LockOwner.shared, Bool.and_eq_true, Bool.not_eq_true'] at h
  exact h.2

theorem LockOwner.shared_eq_false (h : o.exclusive = true) : o.shared = false := by
  cases hs : o.shared with
  | false => rfl
  | true => simp [LockOwner.exclusive_eq_false hs] at h

structure Exclusive (s : LockState) (o : LockOwner) : Prop where
  owners : s.ownerList = [o]
  exclusive : o.exclusive = true
  flags : s.flags = ⟨true, false⟩
  numShared : s.numShared = 0

structure Shared (s : LockState) : Prop where
  owners : ∀ o ∈ s.ownerList, o.shared = true
  flags : s.flags = ⟨false, !s.ownerList.isEmpty⟩
  numShared : s.numShared = s.ownerList.length

variable {s : LockState} {streamIDPtr : Option FileId} {args : IocLockArgs}

theorem Exclusive.exclusion (h : Exclusive s o) : Exclusion s where
  owners := .inl ⟨o, h.owners, h.exclusive⟩
  numShared := by simp [h.numShared, h.owners, LockOwner.shared_eq_false h.exclusive]
  sharedFlag := by simp [h.flags, h.owners, LockOwner.shared_eq_false h.exclusive]
  exclusiveFlag := by simp [h.flags, h.owners, h.exclusive]

theorem Shared.exclusion (h : Shared s) : Exclusion s where
  owners := .inr h.owners
  numShared := by rw [h.numShared, countP_eq_length.mpr h.owners]
  sharedFlag := by
    rw [h.flags]
    cases hl : s.ownerList with
    | nil => simp
    | cons o l => simpa using .inl (h.owners o (by simp [hl]))
  exclusiveFlag := by
    rw [h.flags]
    constructor
    · intro hf
      simp at hf
    · rintro ⟨o, ho, hx⟩
      rw [LockOwner.exclusive_eq_false (h.owners o ho)] at hx
      exact absurd hx (by simp)

theorem Exclusion.cases (h : Exclusion s) : (∃ o, Exclusive s o) ∨ Shared s := by
  rcases h.owners with ⟨o, ho, hx⟩ | hall
  · have hsh := LockOwner.shared_eq_false hx
    refine .inl ⟨o, ho, hx, ?_, ?_⟩
    · have h₁ : s.flags.exclusive = true := h.exclusiveFlag.mpr ⟨o, by simp [ho], hx⟩
      have h₂ : s.flags.shared = false := by
        by_contra hne
        obtain ⟨o', ho', hs'⟩ := h.sharedFlag.mp (by simpa using hne)
        rw [ho, mem_singleton] at ho'
        rw [ho', hsh] at hs'
        exact absurd hs' (by simp)
      cases hf : s.flags
      simp_all
    · simp [h.numShared, ho, hsh]
  · refine .inr ⟨hall, ?_, ?_⟩
    · have h₁ : s.flags.exclusive = false := by
        by_contra hne
        obtain ⟨o, ho, hx⟩ := h.exclusiveFlag.mp (by simpa using hne)
        rw [LockOwner.exclusive_eq_false (hall o ho)] at hx
        exact absurd hx (by simp)
      have h₂ : s.flags.shared = !s.ownerList.isEmpty := by
        cases hl : s.ownerList with
        | nil =>
          by_contra hne
          obtain ⟨o, ho, -⟩ := h.sharedFlag.mp (by simpa using hne)
          simp [hl] at ho
        | cons o l => simpa using h.sharedFlag.mpr ⟨o, by simp [hl], hall o (by simp [hl])⟩
      cases hf : s.flags
      simp_all
    · rw [h.numShared, countP_eq_length.mpr hall]

/-! ## What each routine keeps -/

theorem lockInit_exclusion : Exclusion lockInit :=
  Shared.exclusion ⟨by simp [lockInit], by simp [lockInit], by simp [lockInit]⟩

theorem waitListNotify_exclusion : Exclusion (waitListNotify s) ↔ Exclusion s :=
  ⟨fun h => ⟨h.owners, h.numShared, h.sharedFlag, h.exclusiveFlag⟩,
    fun h => ⟨h.owners, h.numShared, h.sharedFlag, h.exclusiveFlag⟩⟩

theorem lock_exclusion (h : Exclusion s) (args : IocLockArgs)
    (streamIDPtr : Option FileId) (fresh : FileId) : Exclusion (lock args streamIDPtr fresh s).2 := by
  have hblocked : ∀ l, Exclusion { s with waitList := l } := fun l =>
    ⟨h.owners, h.numShared, h.sharedFlag, h.exclusiveFlag⟩
  unfold lock
  by_cases hx : args.flags.exclusive
  · simp only [hx, if_true]
    split
    · split
      · exact h
      · exact hblocked _
    · next hfree =>
      -- nobody holds the lock, so the new owner is alone
      rcases h.cases with ⟨o, ho⟩ | hs
      · simp [ho.flags] at hfree
      · have hnil : s.ownerList = [] := by simpa [hs.flags] using hfree
        refine Exclusive.exclusion (?_ : Exclusive _ (newOwner args streamIDPtr fresh))
        exact ⟨by simp [hnil], hx, by simp [hs.flags, hnil], by simp [hs.numShared, hnil]⟩
  · simp only [hx, Bool.false_eq_true, if_false]
    by_cases hsh : args.flags.shared
    · simp only [hsh, if_true]
      split
      · split
        · exact h
        · exact hblocked _
      · next hfree =>
        rcases h.cases with ⟨o, ho⟩ | hs
        · simp [ho.flags] at hfree
        · refine Shared.exclusion ⟨?_, ?_, ?_⟩
          · intro o ho
            rcases mem_append.mp ho with ho | ho
            · exact hs.owners o ho
            · rw [mem_singleton] at ho
              simp [ho, LockOwner.shared, newOwner, hsh, hx]
          · simp [hs.flags]
          · simp [hs.numShared]
    · simpa [hsh] using h

theorem unlock_exclusion (h : Exclusion s) (hmine : s.ownerList.any (ownedBy args streamIDPtr) = true) :
    Exclusion (unlock args streamIDPtr s).2 := by
  unfold unlock
  by_cases hx : args.flags.exclusive
  · simp only [hx, if_true]
    split
    · next hheld =>
      -- the exclusive owner is the owner found, and it was alone
      rcases h.cases with ⟨o, ho⟩ | hs
      · rw [waitListNotify_exclusion]
        have ho' : ownedBy args streamIDPtr o = true := by simpa [ho.owners] using hmine
        refine Shared.exclusion ⟨?_, ?_, ?_⟩
        · simp [ho.owners, ho']
        · simp [ho.owners, ho.flags, ho']
        · simp [ho.owners, ho.numShared, ho']
      · simp [hs.flags] at hheld
    · exact h
  · simp only [hx, Bool.false_eq_true, if_false]
    by_cases hsh : args.flags.shared
    · simp only [hsh, if_true]
      split
      · next hheld =>
        rcases h.cases with ⟨o, ho⟩ | hs
        · simp [ho.flags] at hheld
        · rw [waitListNotify_exclusion]
          obtain ⟨o, ho, hmo⟩ := any_eq_true.mp hmine
          have hlen := length_eraseP_of_mem ho hmo
          have hpos := length_pos_of_mem ho
          refine Shared.exclusion ⟨?_, ?_, ?_⟩
          · exact fun o' ho' => hs.owners o' (mem_of_mem_eraseP ho')
          · have hempty : (s.numShared - 1 == 0) = (s.ownerList.eraseP (ownedBy args streamIDPtr)).isEmpty := by
              rw [Bool.eq_iff_iff, isEmpty_iff_length_eq_zero, beq_iff_eq, hs.numShared, hlen]
              omega
            have hnx : s.flags.exclusive = false := by rw [hs.flags]
            simp only [hempty, hheld, hnx]
            cases (s.ownerList.eraseP (ownedBy args streamIDPtr)).isEmpty <;> rfl
          · simp only [hs.numShared, hlen]
            omega
      · exact h
    · simpa [hsh] using h

/-- A close keeps the three copies in step exactly when the lock it breaks is not a shared one. -/
theorem lockClose_exclusion_iff (h : Exclusion s) (streamIDPtr : Option FileId) :
    Exclusion (lockClose streamIDPtr s) ↔
      ∀ o, s.ownerList.find? (onStream streamIDPtr) = some o → o.shared = false := by
  unfold lockClose
  cases hf : s.ownerList.find? (onStream streamIDPtr) with
  | none => simp [h]
  | some o =>
    have ho : o ∈ s.ownerList := mem_of_find?_eq_some hf
    have hmo : onStream streamIDPtr o = true := List.find?_some hf
    simp only [Option.some.injEq, forall_eq', waitListNotify_exclusion]
    rcases h.cases with ⟨o', ho'⟩ | hs
    · obtain rfl : o = o' := by simpa [ho'.owners] using ho
      have hx := ho'.exclusive
      refine ⟨fun _ => LockOwner.shared_eq_false hx, fun _ => Shared.exclusion ⟨?_, ?_, ?_⟩⟩
      · simp [ho'.owners, hmo]
      · simp [ho'.owners, hmo, ho'.flags, LockFlags.clear, show o.flags.exclusive = true from hx]
      · simp [ho'.owners, hmo, ho'.numShared]
    · rw [hs.owners o ho]
      refine ⟨fun hc => ?_, fun hc => absurd hc (by simp)⟩
      have hlen := length_eraseP_of_mem ho hmo
      have hpos := length_pos_of_mem ho
      have hcount : (s.ownerList.eraseP (onStream streamIDPtr)).countP LockOwner.shared =
          (s.ownerList.eraseP (onStream streamIDPtr)).length :=
        countP_eq_length.mpr (fun o' ho' => hs.owners o' (mem_of_mem_eraseP ho'))
      have hnum := hc.numShared
      simp only [hs.numShared, hcount, hlen] at hnum
      omega

theorem breakLocks_owners (clientID : HostId) (flags : LockFlags) (l : List LockOwner) :
    (breakLocks clientID flags l).2.1 = l.filter (fun o => o.hostID != clientID) := by
  induction l generalizing flags with
  | nil => rfl
  | cons o l ih =>
    by_cases ho : o.hostID = clientID
    · simp [breakLocks, ho, ih]
    · simp [breakLocks, ho, ih]

theorem breakLocks_none {clientID : HostId} {l : List LockOwner} (flags : LockFlags)
    (h : ∀ o ∈ l, o.hostID ≠ clientID) : breakLocks clientID flags l = (flags, l, false) := by
  induction l generalizing flags with
  | nil => rfl
  | cons o l ih =>
    have ho := h o mem_cons_self
    simp [breakLocks, ho, ih flags (fun o' ho' => h o' (mem_cons_of_mem o ho'))]

theorem lockClientKill_owners (clientID : HostId) (s : LockState) :
    (lockClientKill clientID s).ownerList = s.ownerList.filter (fun o => o.hostID != clientID) ∧
      (lockClientKill clientID s).numShared = s.numShared := by
  simp only [lockClientKill]
  split <;> exact ⟨breakLocks_owners clientID s.flags s.ownerList, rfl⟩

/-- A client kill keeps the three copies in step exactly when it breaks no shared lock. -/
theorem lockClientKill_exclusion_iff (h : Exclusion s) (clientID : HostId) :
    Exclusion (lockClientKill clientID s) ↔
      ∀ o ∈ s.ownerList, o.hostID = clientID → o.shared = false := by
  rcases h.cases with ⟨o, ho⟩ | hs
  · have hx := ho.exclusive
    have hright : ∀ o' ∈ s.ownerList, o'.hostID = clientID → o'.shared = false := by
      intro o' ho' _
      rw [ho.owners, mem_singleton] at ho'
      rw [ho', LockOwner.shared_eq_false hx]
    refine ⟨fun _ => hright, fun _ => ?_⟩
    by_cases hc : o.hostID = clientID
    · have hkill : lockClientKill clientID s = ⟨[], {}, 0, []⟩ := by
        have hxf : o.flags.exclusive = true := hx
        simp [lockClientKill, ho.owners, ho.flags, ho.numShared, breakLocks, hc, LockFlags.clear, hxf,
          waitListNotify]
      rw [hkill]
      exact lockInit_exclusion
    · have hnone : breakLocks clientID s.flags s.ownerList = (s.flags, s.ownerList, false) :=
        breakLocks_none s.flags (by simpa [ho.owners] using hc)
      simpa [lockClientKill, hnone] using h
  · constructor
    · intro hk o ho hoc
      obtain ⟨howners, hnum⟩ := lockClientKill_owners clientID s
      have hcount := hk.numShared
      have hlt : (s.ownerList.filter (fun o => o.hostID != clientID)).length < s.ownerList.length :=
        length_filter_lt_length_iff_exists.mpr ⟨o, ho, by simp [hoc]⟩
      have hle := countP_le_length (p := LockOwner.shared)
        (l := s.ownerList.filter (fun o => o.hostID != clientID))
      rw [howners, hnum, hs.numShared] at hcount
      omega
    · intro hno
      have hnone : breakLocks clientID s.flags s.ownerList = (s.flags, s.ownerList, false) := by
        refine breakLocks_none s.flags (fun o ho hoc => ?_)
        have := hno o ho hoc
        simp [hs.owners o ho] at this
      simpa [lockClientKill, hnone] using h

/-! ## Runs -/

/-- The calls the file and device routines make on a lock. -/
inductive LockOp where
  | lock (args : IocLockArgs) (streamIDPtr : Option FileId) (fresh : FileId)
  | unlock (args : IocLockArgs) (streamIDPtr : Option FileId)
  | close (streamIDPtr : Option FileId)
  | clientKill (clientID : HostId)
  deriving DecidableEq, Repr

def step (s : LockState) : LockOp → Option LockState
  | .lock args streamIDPtr fresh => some (lock args streamIDPtr fresh s).2
  | .unlock args streamIDPtr =>
    if s.ownerList.any (ownedBy args streamIDPtr) then some (unlock args streamIDPtr s).2 else none
  | .close streamIDPtr => some (lockClose streamIDPtr s)
  | .clientKill clientID => some (lockClientKill clientID s)

/-- The owner record a close finds, and those a client kill finds, are exclusive ones. -/
def BreaksNoShared (s : LockState) : LockOp → Prop
  | .lock _ _ _ => True
  | .unlock _ _ => True
  | .close streamIDPtr => ∀ o, s.ownerList.find? (onStream streamIDPtr) = some o → o.shared = false
  | .clientKill clientID => ∀ o ∈ s.ownerList, o.hostID = clientID → o.shared = false

theorem step_exclusion_iff {s' : LockState} {op : LockOp} (h : Exclusion s)
    (hs : step s op = some s') : Exclusion s' ↔ BreaksNoShared s op := by
  cases op with
  | lock args streamIDPtr fresh =>
    cases hs
    exact iff_of_true (lock_exclusion h args streamIDPtr fresh) trivial
  | unlock args streamIDPtr =>
    simp only [step, Option.ite_none_right_eq_some, Option.some.injEq] at hs
    obtain ⟨hmine, rfl⟩ := hs
    exact iff_of_true (unlock_exclusion h hmine) trivial
  | close streamIDPtr =>
    cases hs
    exact lockClose_exclusion_iff h streamIDPtr
  | clientKill clientID =>
    cases hs
    exact lockClientKill_exclusion_iff h clientID

theorem exclusion_of_reachable (h : Run step BreaksNoShared lockInit s) : Exclusion s :=
  h.invariant (I := Exclusion) (fun _ _ _ hi hc hs => (step_exclusion_iff hi hs).mpr hc)
    lockInit_exclusion

theorem exclusive_grant_alone (h : Exclusion s) {fresh : FileId} (hx : args.flags.exclusive = true)
    (hg : (lock args streamIDPtr fresh s).1 = .success) : s.ownerList = [] := by
  unfold lock at hg
  simp only [hx, if_true] at hg
  split at hg
  · simp at hg
  · next hfree =>
    rcases h.cases with ⟨o, ho⟩ | hs
    · simp [ho.flags] at hfree
    · simpa [hs.flags] using hfree

/-- Where no shared lock is broken the three copies agree, and an exclusive owner is alone. -/
theorem exclusion_of_run {s : LockState} (h : Run step BreaksNoShared lockInit s) :
    Exclusion s ∧
      ∀ args streamIDPtr fresh, args.flags.exclusive = true →
        (lock args streamIDPtr fresh s).1 = .success → s.ownerList = [] :=
  ⟨exclusion_of_reachable h, fun _ _ _ hx hg => exclusive_grant_alone (exclusion_of_reachable h) hx hg⟩

/-- Two streams of different hosts. -/
def streamA : FileId := ⟨0, 1, 0, 7⟩

def streamB : FileId := ⟨0, 1, 0, 8⟩

theorem exclusion_after_exclusive_close :
    ∃ s, Run step BreaksNoShared lockInit s ∧ s.ownerList.length = 1 ∧ Exclusion s := by
  have h₀ : Run step BreaksNoShared lockInit lockInit := Run.refl _ _
  have h₁ := h₀.snoc (l := LockOp.lock ⟨⟨true, false⟩, 2, 20, 0⟩ (some streamA) streamA) trivial rfl
  have h₂ := h₁.snoc (l := LockOp.close (some streamA)) (by simp [BreaksNoShared]; decide) rfl
  have h₃ := h₂.snoc (l := LockOp.lock ⟨⟨false, true⟩, 3, 30, 0⟩ (some streamB) streamB) trivial rfl
  exact ⟨_, h₃, by decide, (exclusion_of_run h₃).1⟩

/-- One of two that share the lock is closed: the other still owns it when a third gets it exclusively. -/
theorem exclusive_meets_shared :
    ∃ s, exec step lockInit
        [.lock ⟨⟨false, true⟩, 2, 20, 0⟩ (some streamA) streamA,
          .lock ⟨⟨false, true⟩, 3, 30, 0⟩ (some streamB) streamB,
          .close (some streamA),
          .lock ⟨⟨true, false⟩, 4, 40, 0⟩ none streamA] = some s ∧
      (∃ o ∈ s.ownerList, o.shared = true) ∧ (∃ o ∈ s.ownerList, o.exclusive = true) ∧
      ¬ Exclusion s := by
  refine ⟨_, rfl, by decide, by decide, fun h => ?_⟩
  have := h.numShared
  revert this
  decide

end SpriteKernel.Fsio.Lock
