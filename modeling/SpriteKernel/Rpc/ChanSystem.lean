import SpriteKernel.Rpc.ChanAlloc
import SpriteKernel.Lib.Transition
import SpriteKernel.Lib.Tally

/- The processes of a client and its channels, at the granularity of `rpcMutex`.
   What a process does to a channel between its allocation and its freeing leaves
   the bits that the allocation goes by alone. -/
namespace SpriteKernel.Rpc
open Function
open Machine Transition

/-- What the allocation depends on: `channelStateInterval` and `rpcChannelNegAcks`. -/
structure ChanConfig where
  channelStateInterval : Nat
  channelNegAcks : Bool

/-- Where a process is: waiting on `freeChannels`, woken up from there, or with a channel. -/
inductive ChanProc where
  | outside
  | waiting (serverID : Int)
  | woken (serverID : Int)
  | holding (ch : Nat)
  deriving DecidableEq

/-- `closing` are the channels in use by `RpcChanClose`; `now` is the clock. -/
structure ChanSystem where
  table : ChannelTable
  now : Nat
  procs : Nat → ChanProc
  closing : List Nat
  panicked : Bool

inductive ChanLabel where
  | alloc (pid : Nat) (serverID : Int)
  | retry (pid : Nat)
  | setup (pid : Nat)
  | work (pid : Nat) (bits : ChanState)
  | free (pid : Nat)
  | close (ch : Nat)
  | closed (ch : Nat)
  | setAllocState (serverID : Int) (trouble : Bool)
  | tick

/-- The choice of `RpcChanAlloc` for a server. -/
def ChanSystem.choice (cfg : ChanConfig) (sys : ChanSystem) (serverID : Int) : Choice :=
  sys.table.choice cfg.channelStateInterval sys.now serverID

/-- `RpcChanAlloc`, from its beginning or from the wakeup on. -/
def ChanSystem.attempt (cfg : ChanConfig) (sys : ChanSystem) (pid : Nat) (serverID : Int) : ChanSystem :=
  match sys.choice cfg serverID with
  | .wait => { sys with procs := update sys.procs pid (.waiting serverID) }
  | .panic => { sys with panicked := true }
  | .take i rebind =>
    { sys with
      table := (sys.table.settle cfg.channelStateInterval sys.now serverID).allocate serverID i rebind
      procs := update sys.procs pid (.holding i) }

/-- `Sync_MasterBroadcast` on `freeChannels`. -/
def ChanProc.wake : ChanProc → ChanProc
  | .waiting serverID => .woken serverID
  | proc => proc

def ChanSystem.broadcast (sys : ChanSystem) : ChanSystem := { sys with procs := fun pid => (sys.procs pid).wake }

/-- The channel of `RpcSetup` and the ID it is given. -/
def ChannelTable.takeID (t : ChannelTable) (ch : Nat) : ChannelTable :=
  let chan := t.channels ch
  { t.set ch { chan with requestRpcHdr := { chan.requestRpcHdr with ID := t.rpcID } } with
    rpcID := uint32 (t.rpcID + 1) }

/-- What the process and the dispatcher make of the other bits of the state word. -/
def ChannelTable.work (t : ChannelTable) (ch : Nat) (bits : ChanState) : ChannelTable :=
  let chan := t.channels ch
  t.set ch { chan with state := { bits with free := chan.state.free, busy := chan.state.busy } }

/-- `RpcChanFree`. -/
def ChanSystem.freeChannel (cfg : ChanConfig) (sys : ChanSystem) (pid ch : Nat) : ChanSystem :=
  if (sys.table.channels ch).state = chanFree then { sys with panicked := true }
  else
    let sys := { sys with table := sys.table.free ch, procs := update sys.procs pid .outside }
    if sys.table.numFreeChannels = 1 ∨ cfg.channelNegAcks then sys.broadcast else sys

def ChanSystem.step (cfg : ChanConfig) (sys : ChanSystem) (l : ChanLabel) : Option ChanSystem :=
  if sys.panicked then none
  else match l with
  -- `Rpc_Call` refuses a server that is negative
  | .alloc pid serverID =>
    if sys.procs pid = .outside ∧ 0 ≤ serverID then some (sys.attempt cfg pid serverID) else none
  | .retry pid =>
    match sys.procs pid with
    | .woken serverID => some (sys.attempt cfg pid serverID)
    | _ => none
  | .setup pid =>
    match sys.procs pid with
    | .holding ch => some { sys with table := sys.table.takeID ch }
    | _ => none
  | .work pid bits =>
    match sys.procs pid with
    | .holding ch => some { sys with table := sys.table.work ch bits }
    | _ => none
  | .free pid =>
    match sys.procs pid with
    | .holding ch => some (sys.freeChannel cfg pid ch)
    | _ => none
  | .close ch =>
    if ch < sys.table.rpcNumChannels then
      if (sys.table.channels ch).state.busy then some sys
      else some { sys with table := sys.table.borrow ch, closing := ch :: sys.closing }
    else none
  | .closed ch =>
    if ch ∈ sys.closing then some { sys with table := sys.table.giveBack ch, closing := sys.closing.erase ch }
    else none
  | .setAllocState serverID trouble =>
    if 0 ≤ serverID then
      some { sys with table := { sys.table with
        serverAllocState := setChannelAllocStateInt sys.now serverID trouble sys.table.serverAllocState } }
    else none
  | .tick => some { sys with now := sys.now + 1 }

/-- The client after `Rpc_Init`. -/
def ChanSystem.initial (rpcNumChannels : Nat) (memory : Nat → RpcClientChannel) : ChanSystem where
  table := ChannelTable.initial rpcNumChannels memory
  now := 0
  procs := fun _ => .outside
  closing := []
  panicked := false

/-- No process that waits on `freeChannels` would be given a channel of this table. -/
def ChanSystem.NoneServed (cfg : ChanConfig) (sys : ChanSystem) (t : ChannelTable) (now : Nat) : Prop :=
  ∀ pid serverID i rebind, sys.procs pid = .waiting serverID →
    t.choice cfg.channelStateInterval now serverID ≠ .take i rebind

/-- With a congested server whose lowest channel is the busy channel 0, some channel is unused or free again, and the
    first unused one is not in use by `RpcChanClose`; with any other, not every free channel was last used with
    another server and the ID `UINT_MAX`. -/
def ChanSystem.AllocCareful (cfg : ChanConfig) (sys : ChanSystem) (serverID : Int) : Prop :=
  let t := sys.table
  1 ≤ t.numFreeChannels →
    if t.congested cfg.channelStateInterval sys.now serverID then
      (t.Lowest serverID 0 → (t.channels 0).state ≠ chanFree →
        ∃ i < t.rpcNumChannels, (t.channels i).serverID = -1 ∨ (t.channels i).Reusable serverID) ∧
      ((∀ k, t.Lowest serverID k → k = 0 ∧ (t.channels 0).state ≠ chanFree) →
        ∀ i, t.Lowest (-1) i → i ∉ sys.closing)
    else ∃ i < t.rpcNumChannels, (t.channels i).state = chanFree ∧
      ((t.channels i).serverID = -1 ∨ (t.channels i).serverID = serverID ∨
        (t.channels i).requestRpcHdr.ID < uintMax)

/-- A channel is asked for as above; while a process waits that could take one no channel comes back from
    `RpcChanClose`, nor does a server's mark change or expire. -/
def ChanSystem.Careful (cfg : ChanConfig) (sys : ChanSystem) : ChanLabel → Prop
  | .alloc _ serverID => sys.AllocCareful cfg serverID
  | .retry pid => ∀ serverID, sys.procs pid = .woken serverID → sys.AllocCareful cfg serverID
  | .closed ch => sys.NoneServed cfg (sys.table.giveBack ch) sys.now
  | .setAllocState serverID trouble =>
    sys.NoneServed cfg { sys.table with
      serverAllocState := setChannelAllocStateInt sys.now serverID trouble sys.table.serverAllocState } sys.now
  | .tick => sys.NoneServed cfg sys.table (sys.now + 1)
  | _ => True

end SpriteKernel.Rpc
