import SpriteKernel.Fsconsist.ClientList

/- Server side of the cache consistency protocol (`fsconsistCache.c`): what a process does to a file's consistency
   state from where it takes the monitor to where it gives it up, by finishing, waiting, or calling a client back. It
   leaves a frame then: where it goes on, and its locals. The log and the `began`, `visited` and `present` locals are
   history. -/
namespace SpriteKernel.Fsconsist

open SpriteKernel

/-- This host, `fsconsist_ClientCachingEnabled`, whether the descriptor is of a `FS_FILE` and the handle a
    `FSIO_LCL_FILE_STREAM`. -/
structure Env where
  rpc_SpriteID : HostId
  clientCachingEnabled : Bool
  isFile : Bool
  isLclFileStream : Bool
  deriving DecidableEq, Repr

/-- The command bits of a consistency message (`FSCONSIST_WRITE_BACK_BLOCKS`, ...). -/
structure CmdFlags where
  writeBackBlocks : Bool := false
  invalidateBlocks : Bool := false
  deleteFile : Bool := false
  writeBackAttrs : Bool := false
  migration : Bool := false
  deriving DecidableEq, Repr

/-- `ConsistMsgInfo`, and the address it is at. -/
structure ConsistMsgInfo where
  ptr : Nat
  clientID : HostId
  flags : CmdFlags
  deriving DecidableEq, Repr

/-- `FS_CONSIST_IN_PROGRESS`, `FS_CONSIST_ERROR` and `FS_CONSIST_TIMEOUT`. -/
structure ConsistFlags where
  inProgress : Bool := false
  error : Bool := false
  timeout : Bool := false
  deriving DecidableEq, Repr

/-- A process. -/
abbrev Pid := Nat

/-- An execution of `ClientCommand`: by whom, to whom, what, and whether `FS_CONSIST_IN_PROGRESS` was set. -/
structure Command where
  pid : Pid
  clientID : HostId
  flags : CmdFlags
  inProgress : Bool
  deriving DecidableEq, Repr

/-- `Fsconsist_Info` (`lastWriter` is `none` for -1), with the state around it. -/
structure Info where
  flags : ConsistFlags := {}
  lastWriter : Option HostId := none
  openTimeStamp : Nat := 0
  clientList : ClientList := []
  msgList : List ConsistMsgInfo := []
  /-- `handlePtr->use`. -/
  use : UseCounts := 0
  /-- The global `openTimeStamp`. -/
  stamp : Nat := 0
  fresh : Nat := 0
  log : List Command := []
  deriving DecidableEq, Repr

/-- `Fsconsist_Init`: the initial values of `Info`. -/
def init : Info := {}

/-- The routines that walk the client list. For a re-open the flags are those it computed from the use counts. -/
inductive Scan where
  | fileConsistency (clientID : HostId) (useFlags : UseFlags)
  | reopenConsistency (clientID : HostId) (useFlags : UseFlags)
  | migrateConsistency (dstClientID : HostId) (useFlags : UseFlags)
  | getClientAttrs (clientID : HostId)
  deriving DecidableEq, Repr

/-- What a routine does once it owns `FS_CONSIST_IN_PROGRESS`. -/
inductive Action where
  | scan (a : Scan)
  | clientRemoveCallback (clientID : HostId)
  | fetchDirtyBlocks (invalidate : Bool)
  deriving DecidableEq, Repr

/-- The locals of a traversal, its results, and history: the entries at its beginning, those visited, those at its
    end. -/
structure Locals where
  cacheable : Bool := false
  isExeced : Bool := false
  openTimeStamp : Nat := 0
  began : List Nat := []
  visited : List Nat := []
  present : List Nat := []
  deriving DecidableEq, Repr

/-- `Fsconsist_ClientRemoveCallback` with `curClientID`, and `Fsconsist_FetchDirtyBlocks` with `nextClientPtr`. -/
inductive Loop where
  | removing (clientID curClientID : HostId)
  | fetching (invalidate : Bool) (nextClientPtr : Option Nat)
  deriving DecidableEq, Repr

/-- Where a routine goes on after a call-back. -/
inductive CallFrame where
  | scanning (a : Scan) (loc : Locals) (nextClientPtr : Option Nat)
  | loop (l : Loop)
  deriving DecidableEq, Repr

/-- Where a routine goes on after the wait for the replies. -/
inductive EndFrame where
  | ending (a : Scan) (loc : Locals)
  | loop (l : Loop)
  deriving DecidableEq, Repr

/-- Not here, waiting for `consistDone`, out on a call-back, about to retake the monitor, waiting for `repliesIn`, or
    back. -/
inductive Pc where
  | idle
  | waitDone (a : Action)
  | inRpc (f : CallFrame) (msg : ConsistMsgInfo)
  | relock (f : CallFrame)
  | waitReplies (f : EndFrame)
  | returned (a : Action) (loc : Locals) (status : ReturnStatus)
  deriving DecidableEq, Repr

/-- The process is between setting `FS_CONSIST_IN_PROGRESS` and finishing. -/
def Pc.active : Pc → Bool
  | .inRpc _ _ | .relock _ | .waitReplies _ => true
  | .idle | .waitDone _ | .returned _ _ _ => false

/-- The process is in none of these routines. -/
def Pc.free : Pc → Bool
  | .idle | .returned _ _ _ => true
  | .waitDone _ | .inRpc _ _ | .relock _ | .waitReplies _ => false

/-- What one stretch inside the monitor leaves. -/
abbrev Stretch := Except Panic (Info × Pc)

/-! ## StartConsistency: the decisions -/

/-- The cacheability of the file for an open by `clientID`. -/
def cacheableFor (env : Env) (clientID : HostId) (useFlags : UseFlags) (l : ClientList) : Bool :=
  let cacheable :=
    if useFlags.swap && clientID != env.rpc_SpriteID then false
    else if !env.isFile then false
    else if useFlags.map then false
    else env.clientCachingEnabled
  cacheable && l.all (fun c =>
    !c.mapped && (c.clientID == clientID || !(c.use.write > 0 || (c.use.ref > 0 && useFlags.write))))

/-- The command `StartConsistency` has for another client. -/
def startCommand (clientID : HostId) (useFlags : UseFlags) (cacheable : Bool)
    (lastWriter : Option HostId) (c : ClientInfo) : Option CmdFlags :=
  if c.clientID == clientID then none
  else if !c.cached then none
  else if cacheable then
    if lastWriter != some c.clientID then none
    else if lastWriter == some clientID then none
    else
      some { writeBackBlocks := true, migration := useFlags.migrating
             invalidateBlocks := useFlags.write }
  else if c.use.write == 0 && c.use.ref > 0 then some { invalidateBlocks := true }
  else if c.use.write > 0 then
    some { writeBackBlocks := true, invalidateBlocks := true, migration := useFlags.migrating }
  else none

/-- The command `Fsconsist_GetClientAttrs` has for a client. -/
def attrsCommand (clientID : HostId) (c : ClientInfo) : Option CmdFlags :=
  if c.cached && c.use.ref > 0 && c.clientID != clientID && c.use.exec == 0 then
    some { writeBackAttrs := true }
  else none

/-- The command a traversal has for the entry it visits. -/
def Scan.command (a : Scan) (cacheable : Bool) (lastWriter : Option HostId) (c : ClientInfo) :
    Option CmdFlags :=
  match a with
  | .fileConsistency clientID useFlags => startCommand clientID useFlags cacheable lastWriter c
  | .reopenConsistency clientID useFlags => startCommand clientID useFlags cacheable lastWriter c
  | .migrateConsistency dst useFlags =>
    startCommand dst { useFlags with migrating := true } cacheable lastWriter c
  | .getClientAttrs clientID => attrsCommand clientID c

/-- The cacheability a traversal works with. -/
def Scan.cacheable (env : Env) (a : Scan) (l : ClientList) : Bool :=
  match a with
  | .fileConsistency clientID useFlags => cacheableFor env clientID useFlags l
  | .reopenConsistency clientID useFlags => cacheableFor env clientID useFlags l
  | .migrateConsistency dst useFlags => cacheableFor env dst { useFlags with migrating := true } l
  | .getClientAttrs _ => false

/-! ## Call-backs and the traversals -/

/-- History: `p` executes `ClientCommand`. -/
def logCommand (p : Pid) (c : ClientInfo) (flags : CmdFlags) (s : Info) : Info :=
  { s with log := ⟨p, c.clientID, flags, s.flags.inProgress⟩ :: s.log }

/-- `ClientCommand` to this host: we have the most recent blocks already. -/
def selfLastWriter (flags : CmdFlags) (lastWriter : Option HostId) : Option HostId :=
  if flags.writeBackBlocks then none else lastWriter

/-- `ClientCommand` to this host: our entry stops caching if asked to, and goes if nothing keeps it. -/
def selfList (c : ClientInfo) (flags : CmdFlags) (lastWriter : Option HostId) (l : ClientList) :
    ClientList :=
  let l := if flags.invalidateBlocks then l.updateAt c.ptr (.setCached false) else l
  if c.use.ref == 0 && lastWriter != some c.clientID then l.removeAt c.ptr else l

/-- `ClientCommand` to this host: nothing is sent, the bookkeeping is done at once. -/
def commandSelf (c : ClientInfo) (flags : CmdFlags) (s : Info) : Info :=
  let lastWriter := selfLastWriter flags s.lastWriter
  { s with lastWriter := lastWriter, clientList := selfList c flags lastWriter s.clientList }

/-- The message `ClientCommand` allocates for another host. -/
def newMsg (c : ClientInfo) (flags : CmdFlags) (s : Info) : ConsistMsgInfo :=
  ⟨s.fresh, c.clientID, flags⟩

/-- `ClientCommand` to another host: the message is on `msgList`. -/
def commandPost (c : ClientInfo) (flags : CmdFlags) (s : Info) : Info :=
  { s with msgList := s.msgList ++ [newMsg c flags s], fresh := s.fresh + 1 }

/-- `ClientCommand` up to the call-back. `none`: the client is this host. `some msg`: the monitor is given up for the
    RPC. -/
def clientCommand (env : Env) (p : Pid) (c : ClientInfo) (flags : CmdFlags) (s : Info) :
    Except Panic (Info × Option ConsistMsgInfo) :=
  let s := logCommand p c flags s
  if c.clientID == env.rpc_SpriteID then .ok (commandSelf c flags s, none)
  else if !env.isLclFileStream then .error .badStreamType
  else if !s.flags.inProgress then .error .consistFlagNotSet
  else .ok (commandPost c flags s, some (newMsg c flags s))

/-- `clientPtr->locked = FALSE`, and `TRUE` for the next entry. -/
def unlockAndPin (ptr : Nat) (next : Option Nat) (s : Info) : Info :=
  let l := s.clientList.updateAt ptr (.setLocked false)
  { s with
    clientList := match next with
      | some q => l.updateAt q (.setLocked true)
      | none => l }

def Locals.visit (c : ClientInfo) (loc : Locals) : Locals :=
  { loc with isExeced := loc.isExeced || c.use.exec > 0, visited := loc.visited ++ [c.ptr] }

/-- The addresses from `nextClientPtr` on; the first is no entry's where the entry is gone. -/
def ptrsFrom (nextClientPtr : Option Nat) (l : ClientList) : List Nat :=
  match nextClientPtr with
  | none => []
  | some q => q :: ((l.map ClientInfo.ptr).dropWhile (fun r => r != q)).tail

/-- `UpdateList`, for a caller that wants the time stamp. -/
def updateList (clientID : HostId) (useFlags : UseFlags) (cacheable : Bool) (s : Info) : Info :=
  let l := s.clientList.ioClientOpen s.fresh clientID useFlags cacheable
  { s with
    clientList := l.updateClient clientID (.setOpenTimeStamp (s.stamp + 1))
    fresh := s.fresh + 1
    lastWriter := if cacheable && useFlags.write then some clientID else s.lastWriter
    stamp := s.stamp + 1
    openTimeStamp := s.stamp + 1 }

/-- What `Fsconsist_ReopenConsistency` does between its traversal and
`EndConsistency`. -/
def reopenUpdate (clientID : HostId) (useFlags : UseFlags) (cacheable : Bool) (s : Info) : Info :=
  { s with
    stamp := s.stamp + 1
    openTimeStamp := s.stamp + 1
    lastWriter := if useFlags.write && cacheable then some clientID else s.lastWriter
    clientList := s.clientList.updateClient clientID
      (fun c => (c.setOpenTimeStamp (s.stamp + 1)).setCached cacheable) }

/-- The end of `EndConsistency`, once every reply is in: its status, and the flags
it leaves. -/
def finishEnd (s : Info) : ReturnStatus × Info :=
  (if s.flags.error then .fsNoDiskSpace else .success, { s with flags := {} })

/-- `EndConsistency`, for a traversal: the timeout, and a wait unless every reply is in already. -/
def endConsistency (a : Scan) (loc : Locals) (s : Info) : Info × Pc :=
  if s.msgList.isEmpty then ((finishEnd s).2, .returned (.scan a) loc (finishEnd s).1)
  else ({ s with flags := { s.flags with timeout := true } }, .waitReplies (.ending a loc))

/-- What a routine does when its traversal is through. -/
def afterTraversal (a : Scan) (loc : Locals) (s : Info) : Info × Pc :=
  let loc := { loc with present := s.clientList.map ClientInfo.ptr }
  match a with
  | .fileConsistency clientID useFlags =>
    let s := updateList clientID useFlags loc.cacheable s
    endConsistency a { loc with openTimeStamp := s.openTimeStamp } s
  | .reopenConsistency clientID useFlags =>
    let s := reopenUpdate clientID useFlags loc.cacheable s
    endConsistency a { loc with openTimeStamp := s.openTimeStamp } s
  | .migrateConsistency dst useFlags =>
    if useFlags.newStream then
      let s := updateList dst useFlags loc.cacheable s
      endConsistency a { loc with openTimeStamp := s.openTimeStamp } s
    else endConsistency a loc s
  | .getClientAttrs _ => endConsistency a loc s

/-- The loop of `StartConsistency` and `Fsconsist_GetClientAttrs` over the entries to come: only the one just visited
    can leave. -/
def traverse (env : Env) (p : Pid) (a : Scan) : Locals → List Nat → Info → Stretch
  | loc, [], s => .ok (afterTraversal a loc s)
  | loc, q :: rest, s =>
    match s.clientList.find? (fun c => c.ptr == q) with
    | none => .error .danglingPointer
    | some c =>
      let s := unlockAndPin q rest.head? s
      let loc := loc.visit c
      match a.command loc.cacheable s.lastWriter c with
      | none => traverse env p a loc rest s
      | some flags =>
        match clientCommand env p c flags s with
        | .error e => .error e
        | .ok (s, none) => traverse env p a loc rest s
        | .ok (s, some msg) => .ok (s, .inRpc (.scanning a loc rest.head?) msg)

/-- The `EndConsistency` in the middle of a loop, where there are replies to wait
for. -/
def waitInLoop (l : Loop) (s : Info) : Info × Pc :=
  ({ s with flags := { s.flags with timeout := true } }, .waitReplies (.loop l))

/-- The loop of `Fsconsist_ClientRemoveCallback`: each turn ends with the removal of its entry. -/
def removeLoop (env : Env) (p : Pid) (clientID : HostId) : ClientList → Info → Stretch
  | [], s =>
    .ok ({ s with flags := {}, lastWriter := none }, .returned (.clientRemoveCallback clientID) {} .success)
  | c :: rest, s =>
    if !(c.use.ref > 0) && s.lastWriter == some c.clientID && c.clientID != clientID then
      match clientCommand env p c { deleteFile := true } s with
      | .error e => .error e
      | .ok (s, some msg) => .ok (s, .inRpc (.loop (.removing clientID c.clientID)) msg)
      | .ok (s, none) =>
        if s.msgList.isEmpty then
          let s := (finishEnd s).2
          removeLoop env p clientID rest
            { s with clientList := s.clientList.removeClient c.clientID }
        else .ok (waitInLoop (.removing clientID c.clientID) s)
    else
      removeLoop env p clientID rest { s with clientList := s.clientList.removeClient c.clientID }

/-- The loop of `Fsconsist_FetchDirtyBlocks`. -/
def fetchLoop (env : Env) (p : Pid) (invalidate : Bool) : List Nat → Info → Stretch
  | [], s => .ok ({ s with flags := {} }, .returned (.fetchDirtyBlocks invalidate) {} .success)
  | q :: rest, s =>
    match s.clientList.find? (fun c => c.ptr == q) with
    | none => .error .danglingPointer
    | some c =>
      let s := unlockAndPin q rest.head? s
      if s.lastWriter != some c.clientID then .error .nonLastWriter
      else if c.use.write > 0 then fetchLoop env p invalidate rest s
      else
        match clientCommand env p c { writeBackBlocks := true, invalidateBlocks := invalidate } s with
        | .error e => .error e
        | .ok (s, some msg) => .ok (s, .inRpc (.loop (.fetching invalidate rest.head?)) msg)
        | .ok (s, none) =>
          if s.msgList.isEmpty then fetchLoop env p invalidate rest (finishEnd s).2
          else .ok (waitInLoop (.fetching invalidate rest.head?) s)

/-! ## The stretches -/

/-- A routine from the point where it found `FS_CONSIST_IN_PROGRESS` clear. -/
def start (env : Env) (p : Pid) (a : Action) (s : Info) : Stretch :=
  let s' := { s with flags := { inProgress := true } }
  match a with
  | .scan a =>
    let ptrs := s'.clientList.map ClientInfo.ptr
    traverse env p a { cacheable := a.cacheable env s'.clientList, began := ptrs } ptrs s'
  | .clientRemoveCallback clientID => removeLoop env p clientID s'.clientList s'
  | .fetchDirtyBlocks invalidate =>
    -- nothing to fetch: the flag is not even set
    if s.lastWriter == none || s.lastWriter == some env.rpc_SpriteID then
      .ok (s, .returned (.fetchDirtyBlocks invalidate) {} .success)
    else fetchLoop env p invalidate (s'.clientList.map ClientInfo.ptr) s'

/-- The wait loop every action starts with. -/
def beginOrWait (env : Env) (p : Pid) (a : Action) (s : Info) : Stretch :=
  if s.flags.inProgress then .ok (s, .waitDone a) else start env p a s

/-- The rest of a loop after its `EndConsistency`. -/
def continueLoop (env : Env) (p : Pid) (l : Loop) (s : Info) : Stretch :=
  match l with
  | .removing clientID cur =>
    let s := { s with clientList := s.clientList.removeClient cur }
    removeLoop env p clientID s.clientList s
  | .fetching invalidate next => fetchLoop env p invalidate (ptrsFrom next s.clientList) s

/-- What follows the wait for the replies. -/
def endWait (env : Env) (p : Pid) (f : EndFrame) (s : Info) : Stretch :=
  match f with
  | .ending a loc => .ok ((finishEnd s).2, .returned (.scan a) loc (finishEnd s).1)
  | .loop l => continueLoop env p l (finishEnd s).2

/-- What follows the return of a call-back, once the monitor is retaken. -/
def resume (env : Env) (p : Pid) (f : CallFrame) (s : Info) : Stretch :=
  match f with
  | .scanning a loc next => traverse env p a loc (ptrsFrom next s.clientList) s
  | .loop l => if s.msgList.isEmpty then continueLoop env p l (finishEnd s).2 else .ok (waitInLoop l s)

/-- The open flags `Fsconsist_ReopenConsistency` computes. -/
def reopenFlags (use : UseCounts) (swap cacheable : Bool) : UseFlags :=
  { swap := swap, read := use.ref > use.write + use.exec, write := use.write > 0 || cacheable
    execute := use.exec > 0 }

/-- `Fsconsist_ReopenConsistency`. A client with no use left is taken off, whatever traversal goes on. -/
def reopenConsistency (env : Env) (p : Pid) (clientID : HostId) (use : UseCounts)
    (swap cacheable : Bool) (s : Info) : Stretch :=
  let useFlags := reopenFlags use swap cacheable
  if useFlags = {} then
    .ok ({ s with clientList := s.clientList.removeClient clientID },
      .returned (.scan (.reopenConsistency clientID useFlags)) { openTimeStamp := s.openTimeStamp }
        .success)
  else beginOrWait env p (.scan (.reopenConsistency clientID useFlags)) s

def migrateConsistency (env : Env) (p : Pid) (src dst : HostId) (useFlags : UseFlags)
    (closeSrc : Bool) (s : Info) : Stretch :=
  if closeSrc then
    match s.clientList.ioClientClose src useFlags (s.lastWriter == some src) with
    | .error e => .error e
    | .ok r =>
      beginOrWait env p (.scan (.migrateConsistency dst useFlags)) { s with clientList := r.list }
  else beginOrWait env p (.scan (.migrateConsistency dst useFlags)) s

/-! ## The routines that do not wait -/

/-- `Fsconsist_Close`: whether the client was known and whether it was caching. -/
def close (clientID : HostId) (flags : UseFlags) (s : Info) : Except Panic (Bool × Bool × Info) :=
  match s.clientList.ioClientClose clientID flags (s.lastWriter == some clientID) with
  | .error e => .error e
  | .ok r =>
    if !r.found then .ok (false, r.cache, s)
    else
      .ok (true, r.cache,
        { s with
          clientList := r.list
          lastWriter := if s.lastWriter.isSome && flags.lastDirtyBlock then none else s.lastWriter })

/-- The entry is in use, or holds the dirty blocks of a remote host, or is pinned. -/
def inUse (env : Env) (lastWriter : Option HostId) (c : ClientInfo) : Bool :=
  !(c.use.ref == 0 && (c.clientID == env.rpc_SpriteID || lastWriter != some c.clientID) && !c.locked)

def numClients (env : Env) (s : Info) : Nat × Info :=
  if s.flags.inProgress then (1, s)
  else
    let l := s.clientList.filter (inUse env s.lastWriter)
    (l.length, { s with clientList := l })

def deleteLastWriter (clientID : HostId) (s : Info) : Info :=
  if s.flags.inProgress then s
  else
    match s.clientList.client clientID with
    | none => s
    | some c =>
      if c.use.ref == 0 && s.lastWriter == some clientID then
        { s with
          clientList := if c.locked then s.clientList else s.clientList.removeClient clientID
          lastWriter := none }
      else s

/-- `Fsconsist_Kill`: the counts the client had. -/
def kill (clientID : HostId) (s : Info) : UseCounts × Info :=
  let (use, l) := s.clientList.ioClientKill clientID
  (use,
    { s with
      clientList := l
      lastWriter := if s.lastWriter == some clientID then none else s.lastWriter
      msgList := s.msgList.eraseP (fun m => m.clientID == clientID) })

/-- `Fsconsist_IOClientKill` on the client list alone, as `Fsio_FileClientKill` does
it. -/
def ioClientKill (clientID : HostId) (s : Info) : Info :=
  { s with clientList := (s.clientList.ioClientKill clientID).2 }

/-- The loop of `ConsistTimeout` over the messages still out. -/
def timeoutLoop : List ConsistMsgInfo → Info → Info
  | [], s => s
  | m :: rest, s =>
    timeoutLoop rest
      { s with
        clientList := (s.clientList.ioClientKill m.clientID).2
        lastWriter := if s.lastWriter == some m.clientID then none else s.lastWriter
        msgList := rest }

def consistTimeout (s : Info) : Info := timeoutLoop s.msgList s

def reopenClient (clientID : HostId) (use : UseCounts) (haveDirtyBlocks : Bool) (s : Info) :
    Except Panic Info :=
  let lastWriter :=
    if haveDirtyBlocks then
      if s.lastWriter != none && s.lastWriter != some clientID then s.lastWriter else some clientID
    else if s.lastWriter == some clientID then none
    else s.lastWriter
  let setUse := fun c : ClientInfo => (c.setUse use).setCached haveDirtyBlocks
  match s.clientList.client clientID with
  | some c =>
    if (s.use + (use - c.use)).negative then .error .badUseCounts
    else
      .ok { s with
        use := s.use + (use - c.use)
        clientList := s.clientList.updateClient clientID setUse
        lastWriter := lastWriter }
  | none =>
    .ok { s with
      use := s.use + use
      clientList := (s.clientList.insertClient s.fresh clientID).updateClient clientID setUse
      fresh := s.fresh + 1
      lastWriter := lastWriter }

/-- `ProcessConsistReply`, of a client that did as told: with its dirty blocks back it is not the last writer. -/
def replyLastWriter (clientID : HostId) (flags : CmdFlags) (lastWriter : Option HostId) :
    Option HostId :=
  if flags.writeBackBlocks && lastWriter == some clientID then none else lastWriter

/-- `ProcessConsistReply`, of a client that did as told: its entry goes if nothing keeps it, or stops caching if
    asked to. -/
def replyList (clientID : HostId) (flags : CmdFlags) (lastWriter : Option HostId) (l : ClientList) :
    ClientList :=
  match l.client clientID with
  | none => l
  | some c =>
    if c.use.ref == 0 && lastWriter != some clientID then l.removeClient clientID
    else if flags.invalidateBlocks then l.updateClient clientID (.setCached false)
    else l

/-- `ProcessConsistReply`, for a reply whose status is `SUCCESS` or not. -/
def processConsistReply (clientID : HostId) (success : Bool) (s : Info) : Info :=
  match s.msgList.find? (fun m => m.clientID == clientID) with
  | none => s
  | some msg =>
    let s := { s with msgList := s.msgList.eraseP (fun m => m.clientID == clientID) }
    if !success then { s with flags := { s.flags with error := true } }
    else
      let lastWriter := replyLastWriter clientID msg.flags s.lastWriter
      { s with
        lastWriter := lastWriter
        clientList := replyList clientID msg.flags lastWriter s.clientList }

end SpriteKernel.Fsconsist
