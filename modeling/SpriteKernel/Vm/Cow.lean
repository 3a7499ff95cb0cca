import SpriteKernel.Vm.Types

/- Copy-on-write (vmCOW.c). The segments of a fork tree are a chain; a copy-on-reference page names, in its page
   frame field, the segment it is to be copied from, which has it copy-on-write. A chain has one operation at a time. -/
namespace SpriteKernel.Vm
open Function

/-- What copy-on-write keeps for a segment. -/
structure CowSegment extends Segment where
  resPages : Int
  numCOWPages : Int
  numCORPages : Int
  cowInfoPtr : Option Nat

structure CowInfo where
  cowList : List Nat
  numSegs : Int

/-- What is used of `VmCore`: the page that a frame has been allocated for, and how often it is
    locked. -/
structure Core where
  virtPage : Option (Nat × Int)
  lockCount : Int

/-- Segments, chains, page frames and swap files; `π` is what a page contains. -/
structure Memory (π : Type) where
  segs : Nat → CowSegment
  infos : Nat → CowInfo
  coreMap : Nat → Core
  frames : Nat → π
  swap : Nat → Int → π

/-- Which frame VmPageAllocate comes to, whether the swap file can be read and copied, and `vmCORReadOnly`. -/
structure Env (π : Type) where
  pick : Memory π → Nat
  readOk : Nat → Int → Bool
  copyOk : Nat → Int → Nat → Bool
  corReadOnly : Bool

def CowSegment.setPte (seg : CowSegment) (page : Int) (pte : Pte) : CowSegment :=
  { seg with ptPtr := update seg.ptPtr (page - seg.offset) pte }

namespace Memory
variable {π : Type} (s : Memory π)

def pte (n : Nat) (page : Int) : Pte := (s.segs n).pte page

def setSeg (n : Nat) (seg : CowSegment) : Memory π := { s with segs := update s.segs n seg }

def setPte (n : Nat) (page : Int) (pte : Pte) : Memory π := s.setSeg n ((s.segs n).setPte page pte)

def setCore (f : Nat) (c : Core) : Memory π := { s with coreMap := update s.coreMap f c }

/-- `VmLockPageInt` and `VmUnlockPage`. -/
def lockPage (f : Nat) : Memory π := s.setCore f { s.coreMap f with lockCount := (s.coreMap f).lockCount + 1 }
def unlockPage (f : Nat) : Memory π := s.setCore f { s.coreMap f with lockCount := (s.coreMap f).lockCount - 1 }

def evict (f : Nat) : Memory π :=
  match (s.coreMap f).virtPage with
  | none => s
  | some (k, old) =>
    let s := s.setSeg k { s.segs k with resPages := (s.segs k).resPages - 1 }
    s.setPte k old { s.pte k old with physRes := false, pageFrame := 0 }

/-- `VmPageAllocate`: a frame not locked is taken, and locked. The process sleeps while there is none. -/
def pageAllocate (f n : Nat) (page : Int) : Option (Memory π) :=
  if f ≠ 0 ∧ (s.coreMap f).lockCount = 0 then some ((s.evict f).setCore f ⟨some (n, page), 1⟩) else none

/-- `VmPageFree` of a frame that is not dirty. -/
def pageFree (f : Nat) : Memory π := s.setCore f ⟨none, 0⟩

def pageSwitch (f n : Nat) : Memory π :=
  s.setCore f ⟨(s.coreMap f).virtPage.map fun v => (n, v.2), (s.coreMap f).lockCount - 1⟩

def copyPage (src dest : Nat) : Memory π := { s with frames := update s.frames dest (s.frames src) }

/-- The segments behind one in its chain. -/
def later (list : List Nat) (n : Nat) : List Nat := (list.dropWhile (· ≠ n)).tail

def cowList (n : Nat) : List Nat :=
  match (s.segs n).cowInfoPtr with
  | some i => (s.infos i).cowList
  | none => []

/-- `COWStart` with a new `VmCOWInfo`. -/
def cowStart (n i : Nat) : Memory π :=
  match (s.segs n).cowInfoPtr with
  | some _ => s
  | none =>
    { s.setSeg n { s.segs n with cowInfoPtr := some i } with
      infos := update s.infos i ⟨[n], 1⟩ }

/-- The entry of a page that is copy-on-reference off a segment. -/
def corPte (src : Nat) : Pte := { Pte.zero with virtRes := true, cor := true, pageFrame := src }

/-- What `DoFork` makes of an entry: the parent's, the child's, and the pages that become copy-on-reference and
    copy-on-write. -/
def forkPte (src : Nat) (pte : Pte) : Pte × Pte × Int × Int :=
  if pte.virtRes = false then (pte, .zero, 0, 0)
  else if pte.cow then (pte, corPte src, 1, 0)
  else if pte.cor then (pte, pte, 1, 0)
  else if pte.physRes || pte.onSwap then ({ pte with cow := true }, corPte src, 1, 1)
  else (pte, pte, 0, 0)

/-- The loop of `DoFork`. The page table of a heap is gone through from its start. -/
def forkLoop (src dest : Nat) : Nat → Int → Memory π → Int → Int → Memory π × Int × Int
  | 0, _, s, cors, cows => (s, cors, cows)
  | count + 1, page, s, cors, cows =>
    let r := forkPte src (s.pte src page)
    let destPage :=
      if (s.segs src).type = .heap then page - (s.segs src).offset + (s.segs dest).offset else page
    forkLoop src dest count (page + 1) ((s.setPte src page r.1).setPte dest destPage r.2.1)
      (cors + r.2.2.1) (cows + r.2.2.2)

def doFork (m : Params) (src dest : Nat) : Memory π :=
  let seg := s.segs src
  let first := if seg.type = .heap then seg.offset else m.lastUserStackPage - seg.numPages + 1
  match forkLoop src dest seg.numPages.toNat first s 0 0 with
  | (s, cors, cows) =>
    match (s.segs src).cowInfoPtr with
    | none => s
    | some i =>
      if cors > 0 then
        let s := s.setSeg src { s.segs src with numCOWPages := (s.segs src).numCOWPages + cows }
        { s.setSeg dest { s.segs dest with numCORPages := cors, cowInfoPtr := some i } with
          infos := update s.infos i ⟨(s.infos i).cowList ++ [dest], (s.infos i).numSegs + 1⟩ }
      else s

def vmSegFork (m : Params) (src dest i : Nat) : Memory π := (s.cowStart src i).doFork m src dest

/-- The test whether a segment is copy-on-reference off another one at a page. -/
def DependsOn (k n : Nat) (page : Int) : Prop :=
  page - (s.segs k).offset < (s.segs k).ptSize ∧ (s.pte k page).cor = true ∧ (s.pte k page).pageFrame = n

instance (k n : Nat) (page : Int) : Decidable (s.DependsOn k n page) := instDecidableAnd

/-- The loop of `FindNewMasterSeg`. -/
def newMasterLoop (n : Nat) (page : Int) : List Nat → Option Nat → Bool → Memory π → Option Nat × Bool × Memory π
  | [], mast, others, s => (mast, others, s)
  | k :: rest, mast, others, s =>
    if s.DependsOn k n page then
      match mast with
      | some mastSeg => newMasterLoop n page rest mast true (s.setPte k page { s.pte k page with pageFrame := mastSeg })
      | none => newMasterLoop n page rest (some k) others s
    else newMasterLoop n page rest mast others s

def findNewMasterSeg (n : Nat) (page : Int) : Option Nat × Bool × Memory π :=
  newMasterLoop n page (later (s.cowList n) n) none false s

/-- A segment is taken out of its chain. -/
def leaveChain (n : Nat) : Memory π :=
  match (s.segs n).cowInfoPtr with
  | none => s
  | some i =>
    { s.setSeg n { s.segs n with cowInfoPtr := none } with
      infos := update s.infos i ⟨(s.infos i).cowList.erase n, (s.infos i).numSegs - 1⟩ }

/-- A segment without pages that are copied on demand leaves its chain. -/
def leaveIfDone (n : Nat) : Memory π :=
  if (s.segs n).numCOWPages = 0 ∧ (s.segs n).numCORPages = 0 then s.leaveChain n else s

def setPTE (n : Nat) (page : Int) (pte : Pte) : Memory π :=
  let s := s.setPte n page pte
  if pte.physRes then s.setSeg n { s.segs n with resPages := (s.segs n).resPages + 1 } else s

/-- `IsResident`: the page is locked if it is. -/
def isResident (n : Nat) (page : Int) : Bool × Memory π :=
  if (s.pte n page).physRes then (true, s.lockPage (s.pte n page).pageFrame) else (false, s)

def getMasterPF (n : Nat) (page : Int) : Nat × Memory π :=
  if (s.pte n page).physRes then ((s.pte n page).pageFrame, s.lockPage (s.pte n page).pageFrame) else (0, s)

def seeIfLastCOR (mast : Nat) (page : Int) : Memory π :=
  if ∃ k ∈ later (s.cowList mast) mast, s.DependsOn k mast page then s
  else
    let s := s.setPte mast page { s.pte mast page with cow := false }
    let s := s.setSeg mast { s.segs mast with numCOWPages := (s.segs mast).numCOWPages - 1 }
    s.leaveIfDone mast

/-- `GiveAwayPage`. The bits that the hardware has are in the entry here. -/
def giveAwayPage (src : Nat) (page : Int) (dest : Nat) (others : Bool) : Memory π :=
  let pte := s.pte src page
  let s := s.setSeg src { s.segs src with resPages := (s.segs src).resPages - 1 }
  let s := s.setSeg dest { s.segs dest with resPages := (s.segs dest).resPages + 1 }
  let s := s.setPte dest page { pte with cow := others }
  let s := s.setPte src page .zero
  s.pageSwitch pte.pageFrame dest

/-- The part of `COR` that fills the frame, and whether it can. -/
def fillFrame (e : Env π) (mast : Nat) (page : Int) (f : Nat) : Bool × Memory π :=
  match s.getMasterPF mast page with
  | (0, s) =>
    if e.readOk mast page then (true, { s with frames := update s.frames f (s.swap mast page) }) else (false, s)
  | (mastPF, s) => (true, (s.copyPage mastPF f).unlockPage mastPF)

/-- `COR`: whether it succeeds, and what it leaves. -/
def cor (e : Env π) (n : Nat) (page : Int) : Option (Bool × Memory π) := do
  let mast := (s.pte n page).pageFrame
  let f := e.pick s
  let s ← s.pageAllocate f n page
  match s.fillFrame e mast page f with
  | (false, s) => return (false, s.pageFree f)
  | (true, s) =>
    let s := s.setSeg n { s.segs n with numCORPages := (s.segs n).numCORPages - 1 }
    let s := s.setPTE n page
      { Pte.zero with
        virtRes := true, physRes := true, referenced := true, modified := true
        corCheck := e.corReadOnly, readOnly := e.corReadOnly, pageFrame := f }
    let s := s.unlockPage f
    return (true, s.seeIfLastCOR mast page)

/-- The copy that `COW` makes of a resident page, for another segment. -/
def copyResident (e : Env π) (n : Nat) (page : Int) (mast : Nat) (others : Bool) : Option (Memory π) := do
  let f := e.pick s
  let s ← s.pageAllocate f mast page
  let s := s.copyPage (s.pte n page).pageFrame f
  let s := s.setPTE mast page
    { Pte.zero with virtRes := true, physRes := true, referenced := true, modified := true, cow := others, pageFrame := f }
  let s := s.unlockPage f
  return s.unlockPage (s.pte n page).pageFrame

/-- The copy of a page that is on swap. The status of VmCopySwapPage is not looked at. -/
def copySwap (e : Env π) (n : Nat) (page : Int) (mast : Nat) (others : Bool) : Memory π :=
  let s :=
    if e.copyOk n page mast then
      { s with swap := update s.swap mast (update (s.swap mast) page (s.swap n page)) }
    else s
  s.setPTE mast page { Pte.zero with virtRes := true, onSwap := true, cow := others }

/-- The part of `COW` for a page that another segment is copy-on-reference off: that one gets the
    page. -/
def cowTo (e : Env π) (n : Nat) (page : Int) (mast : Nat) (others isResident deletePage : Bool) : Option (Memory π) := do
  let s := s.setSeg mast { s.segs mast with numCORPages := (s.segs mast).numCORPages - 1 }
  let s := if others then s.setSeg mast { s.segs mast with numCOWPages := (s.segs mast).numCOWPages + 1 } else s
  let s ←
    if isResident then
      if deletePage then some (s.giveAwayPage n page mast others) else s.copyResident e n page mast others
    else some (s.copySwap e n page mast others)
  return s.leaveIfDone mast

def cow (e : Env π) (n : Nat) (page : Int) (isResident deletePage : Bool) : Option (Memory π) := do
  let s ←
    match s.findNewMasterSeg n page with
    | (some mast, others, s) => s.cowTo e n page mast others isResident deletePage
    | (none, _, s) => some s
  let s := s.setPte n page { s.pte n page with cow := false }
  return s.setSeg n { s.segs n with numCOWPages := (s.segs n).numCOWPages - 1 }

/-- The last segment of a chain has no page that is copied on demand. -/
def resetLast (m : Params) (k : Nat) : Memory π :=
  let seg := s.segs k
  s.setSeg k
    { seg with
      cowInfoPtr := none
      numCORPages := 0
      numCOWPages := 0
      ptPtr := fun i =>
        if seg.firstPage m ≤ i + seg.offset ∧ i + seg.offset ≤ seg.lastPage m then { seg.ptPtr i with cow := false, cor := false }
        else seg.ptPtr i }

def cowEnd (m : Params) (n : Nat) : Memory π :=
  match (s.segs n).cowInfoPtr with
  | none => s
  | some i =>
    let s := s.leaveIfDone n
    match (s.infos i).cowList with
    | k :: _ => if (s.infos i).numSegs = 1 then s.resetLast m k else s
    | [] => s

def vmCOR (m : Params) (e : Env π) (n : Nat) (page : Int) : Option (Bool × Memory π) :=
  if (s.segs n).cowInfoPtr = none then some (true, s)
  else if (s.pte n page).cor = false then some (true, s.cowEnd m n)
  else (s.cor e n page).map fun r => (r.1, r.2.cowEnd m n)

def vmCOW (m : Params) (e : Env π) (n : Nat) (page : Int) : Option (Memory π) :=
  if (s.segs n).cowInfoPtr = none then some s
  else if (s.pte n page).cow = false then some (s.cowEnd m n)
  else
    match s.isResident n page with
    | (true, s) => (s.cow e n page true false).map fun s => s.cowEnd m n
    | (false, s) => some (s.cowEnd m n)

def pageValidate (n : Nat) (page : Int) : Memory π :=
  if (s.pte n page).physRes then s
  else
    let s := s.setSeg n { s.segs n with resPages := (s.segs n).resPages + 1 }
    s.setPte n page { s.pte n page with physRes := true }

/-- One turn of the loop of `VmCOWCopySeg`. -/
def copyTurn (e : Env π) (n : Nat) (page : Int) : Option (Bool × Memory π) :=
  if (s.pte n page).cow then
    match s.isResident n page with
    | (resident, s) => (s.cow e n page resident false).map fun s => (true, s.pageValidate n page)
  else if (s.pte n page).cor then s.cor e n page
  else some (true, s)

/-- The loop, over so many pages. It ends when a page cannot be read. -/
def copyLoop (e : Env π) (n : Nat) : Nat → Int → Memory π → Option (Bool × Memory π)
  | 0, _, s => some (true, s)
  | count + 1, page, s =>
    match s.copyTurn e n page with
    | some (true, s) => copyLoop e n count (page + 1) s
    | r => r

def vmCOWCopySeg (m : Params) (e : Env π) (n : Nat) : Option (Bool × Memory π) :=
  if (s.segs n).cowInfoPtr = none then some (true, s)
  else
    (copyLoop e n (s.segs n).numPages.toNat ((s.segs n).firstPage m) s).map fun r => (r.1, r.2.cowEnd m n)

/-- One turn of the loop of `VmCOWDeleteFromSeg`. -/
def deleteTurn (e : Env π) (n : Nat) (page : Int) : Option (Memory π) :=
  if (s.pte n page).cow then
    match s.isResident n page with
    | (resident, s) => s.cow e n page resident true
  else if (s.pte n page).cor then some (s.setSeg n { s.segs n with numCORPages := (s.segs n).numCORPages - 1 })
  else some s

def deleteLoop (e : Env π) (n : Nat) : Nat → Int → Memory π → Option (Memory π)
  | 0, _, s => some s
  | count + 1, page, s =>
    match s.deleteTurn e n page with
    | some s => deleteLoop e n count (page + 1) s
    | none => none

/-- `VmCOWDeleteFromSeg`, of some pages or, where the first is `-1`, of all. -/
def vmCOWDeleteFromSeg (m : Params) (e : Env π) (n : Nat) (firstPage lastPage : Int) : Option (Memory π) :=
  let first := if firstPage = -1 then (s.segs n).firstPage m else firstPage
  let last := if firstPage = -1 then (s.segs n).lastPage m else lastPage
  if (s.segs n).cowInfoPtr = none then some s
  else (deleteLoop e n (last - first + 1).toNat first s).map fun s => s.cowEnd m n

end Memory

end SpriteKernel.Vm
