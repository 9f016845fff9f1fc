import KnockoutKraken.Cache.LRUCore
import KnockoutKraken.Library.Machine
import KnockoutKraken.Library.OneHot
import KnockoutKraken.Util.FlushQueue

/-!
# The data bank manager

A request is accepted into the first stage while the bank and the
replacement memory read its set; one cycle later the second stage matches
the word, answers, writes the bank and emits the miss or the writeback.
`SecondStage` is the combinational part, `DataBank` the registers of the
manager together with the memories it is wired to.
-/

namespace KnockoutKraken.Cache

open Library Util

structure FrontendRequest (p : DatabankParams) where
  addr : p.Addr
  asid : BitVec p.asidW
  thid : BitVec p.thidW
  perm : BitVec 2
  wData : p.Block
  wMask : p.Block
  flushV : Bool
  refillV : Bool
  refillData : p.Block
deriving DecidableEq

structure FrontendReply (p : DatabankParams) where
  rData : p.Block
  wData : p.Block
  thid : BitVec p.thidW
  asid : BitVec p.asidW
  hit : Bool
  refill : Bool
  flush : Bool
deriving DecidableEq

structure MissRequest (p : DatabankParams) where
  addr : p.Addr
  asid : BitVec p.asidW
  thid : BitVec p.thidW
  perm : BitVec 2
  wData : p.Block
  wMask : p.Block
  notSyncWithDataV : Bool
deriving DecidableEq

structure WriteBackRequest (p : DatabankParams) where
  addr : p.Addr
  data : p.Block
  flushV : Bool
deriving DecidableEq

structure BankWriteRequest (p : DatabankParams) where
  addr : p.SetIndex
  which : p.Way
  data : CacheEntry p
deriving DecidableEq

/-- How a hit entry is overridden by a request. Every use in the repository keeps
the tag and the valid bit, and leaves a valid entry alone under an empty mask. -/
structure UpdateFunction (p : DatabankParams) where
  apply : FrontendRequest p → CacheEntry p → CacheEntry p
  apply_tag : ∀ q entry, (apply q entry).tag = entry.tag
  apply_v : ∀ q entry, entry.v = true → (apply q entry).v = true
  apply_zero_mask : ∀ q entry, entry.v = true → q.wMask = 0#p.blockSize → apply q entry = entry

/-- The information kept about the write of the request that just left the second stage. -/
structure WritingContext (p : DatabankParams) where
  addr : p.Addr
  asid : BitVec p.asidW
  dataBlock : p.Block
  flushV : Bool
deriving DecidableEq

def WritingContext.toEntry {p : DatabankParams} (context : WritingContext p) : CacheEntry p :=
  -- the refill assigns the valid bit last, whatever the flush bit says
  { CacheEntry.refill context.addr context.dataBlock with d := true }

/-- What the second stage reads: its request, the word of the bank, the register
of the previous write and the way to replace. -/
structure SecondStage (p : DatabankParams) where
  request : FrontendRequest p
  bankRamReply : p.Way → CacheEntry p
  s2BankWritingR : Option (WritingContext p)
  lruWhichI : p.Way

namespace SecondStage

variable {p : DatabankParams} (x : SecondStage p)

def matchBits (way : p.Way) : Bool :=
  (x.bankRamReply way).checkHit x.request.addr && (x.bankRamReply way).v

def fullWritingV : Bool := x.request.wMask == BitVec.allOnes p.blockSize || x.request.refillV

def matchWhich : p.Way := ohToUInt x.matchBits

def s2WritingMatched : Option (WritingContext p) :=
  x.s2BankWritingR.filter fun context => context.addr == x.request.addr

def hitEntry : CacheEntry p :=
  match x.s2WritingMatched with
  | some context => context.toEntry
  | none => x.bankRamReply x.matchWhich

def hitV : Bool :=
  match x.s2WritingMatched with
  | some context => !context.flushV
  | none => popCount x.matchBits == 1

/-- Hit, refill and full writing update the replacement bits, a flush does not. -/
def lruIndexO : Option p.Way :=
  if (x.hitV || x.fullWritingV) && !x.request.flushV
  then some (if x.hitV then x.matchWhich else x.lruWhichI) else none

def flushEntry : CacheEntry p where
  tag := 0
  data := 0
  v := false
  d := false

variable (update : UpdateFunction p)

def updatedEntry : CacheEntry p :=
  if x.request.flushV then flushEntry else update.apply x.request x.hitEntry

def refillNewEntry : CacheEntry p := CacheEntry.refill x.request.addr x.request.refillData

def refillEntry : CacheEntry p :=
  if x.hitV then update.apply x.request x.hitEntry else update.apply x.request x.refillNewEntry

def frontendReplyO : FrontendReply p where
  rData := x.hitEntry.read
  wData := if x.fullWritingV then (x.refillEntry update).read else (x.updatedEntry update).read
  thid := x.request.thid
  asid := x.request.asid
  hit := x.hitV || x.fullWritingV
  refill := x.request.refillV
  flush := x.request.flushV

def s2BankWritingN : Option (WritingContext p) :=
  if (x.request.wMask != 0#p.blockSize || x.request.flushV || x.request.refillV) && (x.hitV || x.fullWritingV)
  then some
    { addr := x.request.addr
      asid := x.request.asid
      dataBlock := (x.frontendReplyO update).wData
      flushV := x.request.flushV }
  else none

def frontendWriteToBank : Option (BankWriteRequest p) :=
  if x.hitV && !x.request.refillV && decide (x.updatedEntry update ≠ x.hitEntry)
  then some ⟨setIndex x.request.addr, x.matchWhich, x.updatedEntry update⟩ else none

def fullWritingRequest : Option (BankWriteRequest p) :=
  if x.fullWritingV
  then some ⟨setIndex x.request.addr, if x.hitV then x.matchWhich else x.lruWhichI, x.refillEntry update⟩
  else none

def bankRamWriteRequestO : Option (BankWriteRequest p) :=
  (x.fullWritingRequest update).or (x.frontendWriteToBank update)

def missRequest : Option (MissRequest p) :=
  if !x.hitV && !x.fullWritingV && !x.request.flushV
  then some
    { addr := x.request.addr
      asid := x.request.asid
      thid := x.request.thid
      perm := x.request.perm
      wData := x.request.wData
      wMask := x.request.wMask
      notSyncWithDataV := false }
  else none

def replacedEntry : CacheEntry p := x.bankRamReply x.lruWhichI

def evictionWbReq : Option (WriteBackRequest p) :=
  if x.replacedEntry.d && !x.hitV && x.request.refillV
  then some
    { addr := if 1 < p.setWidth then x.replacedEntry.address (setIndex x.request.addr)
        else x.replacedEntry.tag.setWidth _
      data := x.replacedEntry.read
      flushV := false }
  else none

def flushWbReq : Option (WriteBackRequest p) :=
  if x.hitEntry.d && x.hitV && x.request.flushV
  then some { addr := x.request.addr, data := x.hitEntry.read, flushV := true } else none

def writebackRequest : Option (WriteBackRequest p) := x.evictionWbReq.or x.flushWbReq

end SecondStage

/-- The requests the bank receives: from the pipeline, from the page manager and
from the refill queue. What a source leaves unspecified is driven to zero. -/
inductive BankRequest (p : DatabankParams) where
  | access (addr : p.Addr) (asid : BitVec p.asidW) (thid : BitVec p.thidW) (perm : BitVec 2)
      (wData wMask : p.Block)
  | flush (addr : p.Addr) (asid : BitVec p.asidW)
  | refill (addr : p.Addr) (asid : BitVec p.asidW) (thid : BitVec p.thidW) (wData wMask refillData : p.Block)
deriving DecidableEq

def BankRequest.packet {p : DatabankParams} : BankRequest p → FrontendRequest p
  | access addr asid thid perm wData wMask => ⟨addr, asid, thid, perm, wData, wMask, false, false, 0⟩
  | flush addr asid => ⟨addr, asid, 0, 0, 0, 0, true, false, 0⟩
  | refill addr asid thid wData wMask refillData => ⟨addr, asid, thid, 0, wData, wMask, false, true, refillData⟩

/-- The refill of a miss: the write it asked for goes along with the word from memory. -/
def MissRequest.refillToBank {p : DatabankParams} (miss : MissRequest p) (refillData : p.Block) : BankRequest p :=
  .refill miss.addr 0 0 miss.wData miss.wMask refillData

structure DataBank (p : DatabankParams) (core : LRUCore p.wayWidth) where
  s1FrontendRequestR : List (BankRequest p)
  bankRamReplyQ : List (p.Way → CacheEntry p)
  s2BankWritingR : Option (WritingContext p)
  s2MissRequestR : List (MissRequest p)
  s2WritebackRequestR : List (WriteBackRequest p)
  readReplyValid : Bool
  bram : BRAMTDP p.SetIndex p.Way (CacheEntry p)
  lru : LRU p core

namespace DataBank

variable {p : DatabankParams} {core : LRUCore p.wayWidth}

/-- The wires of one cycle: the offered request, which is on the address lines
even when it is not valid, and the two back-end queues. -/
structure Input (p : DatabankParams) where
  request : BankRequest p
  valid : Bool
  missReady : Bool
  writebackReady : Bool

structure Output (p : DatabankParams) where
  reply : Option (FrontendReply p)
  accepted : Option (BankRequest p)
  miss : Option (MissRequest p)
  writeback : Option (WriteBackRequest p)

def s1Queue : FlushQueue := { entries := 1, pipe := true }
def replyQueue : FlushQueue := { entries := 1, pipe := true, flow := true }
def s2Queue : FlushQueue := { entries := 2, pipe := true }

variable (update : UpdateFunction p) (s : DataBank p core) (i : Input p)

def s1 : Option (BankRequest p) := s1Queue.deqBits s.s1FrontendRequestR none

def bankRamReplyData : Option (p.Way → CacheEntry p) :=
  if s.readReplyValid then some s.bram.ramDataA else none

def bankRamReply : Option (p.Way → CacheEntry p) := replyQueue.deqBits s.bankRamReplyQ s.bankRamReplyData

/-- The wires of the bank word, whether or not it is valid. -/
def bankRamReplyBits : p.Way → CacheEntry p := s.bankRamReplyQ.head?.getD s.bram.ramDataA

def secondStage (q : BankRequest p) : SecondStage p where
  request := q.packet
  bankRamReply := s.bankRamReplyBits
  s2BankWritingR := s.s2BankWritingR
  lruWhichI := s.lru.lruO

def pipelineStateReady1 : Bool :=
  s.bankRamReply.isSome == s.s1.isSome &&
    s2Queue.enqReady s.s2MissRequestR i.missReady && s2Queue.enqReady s.s2WritebackRequestR i.writebackReady

def pipelineStateReady0 : Bool := s1Queue.enqReady s.s1FrontendRequestR (s.pipelineStateReady1 i)

def accepted : Option (BankRequest p) :=
  if i.valid && s.pipelineStateReady0 i then some i.request else none

def s1Fire : Option (BankRequest p) := if s.pipelineStateReady1 i then s.s1 else none

def bankRamWriteRequest : Option (BankWriteRequest p) :=
  s.s1.bind fun q => (s.secondStage q).bankRamWriteRequestO update

def frontendReply : Option (FrontendReply p) :=
  (s.s1Fire i).map fun q => (s.secondStage q).frontendReplyO update

def missN : Option (MissRequest p) := (s.s1Fire i).bind fun q => (s.secondStage q).missRequest

def writebackN : Option (WriteBackRequest p) := (s.s1Fire i).bind fun q => (s.secondStage q).writebackRequest

def writePort (w : Option (BankWriteRequest p)) : BRAMPort p.SetIndex p.Way (CacheEntry p) :=
  match w with
  | some w => ⟨true, fun way => way = w.which, w.addr, fun way => if way = w.which then w.data else SecondStage.flushEntry⟩
  | none => ⟨false, fun _ => false, 0, fun _ => SecondStage.flushEntry⟩

def next : DataBank p core where
  s1FrontendRequestR := s1Queue.next s.s1FrontendRequestR (s.accepted i) (s.pipelineStateReady1 i)
  bankRamReplyQ := replyQueue.next s.bankRamReplyQ s.bankRamReplyData s.s1.isSome
  s2BankWritingR := s.s1.bind fun q => (s.secondStage q).s2BankWritingN update
  s2MissRequestR := s2Queue.next s.s2MissRequestR (s.missN i) i.missReady
  s2WritebackRequestR := s2Queue.next s.s2WritebackRequestR (s.writebackN i) i.writebackReady
  readReplyValid := (s.accepted i).isSome
  bram := s.bram.next (.read (setIndex i.request.packet.addr) fun _ => SecondStage.flushEntry)
    (writePort (s.bankRamWriteRequest update))
  lru := s.lru.next (setIndex i.request.packet.addr) (s.s1.bind fun q => (s.secondStage q).lruIndexO)

def output : Output p where
  reply := s.frontendReply update i
  accepted := s.accepted i
  miss := if i.missReady then s2Queue.deqBits s.s2MissRequestR none else none
  writeback := if i.writebackReady then s2Queue.deqBits s.s2WritebackRequestR none else none

def machine : Machine (DataBank p core) (Input p) (Output p) where
  next := next update
  output := output update

/-- Reset: nothing in flight, the memories zeroed. -/
def init : DataBank p core where
  s1FrontendRequestR := []
  bankRamReplyQ := []
  s2BankWritingR := none
  s2MissRequestR := []
  s2WritebackRequestR := []
  readReplyValid := false
  bram := ⟨fun _ _ => SecondStage.flushEntry, fun _ => SecondStage.flushEntry, fun _ => SecondStage.flushEntry⟩
  lru := .init 0

end DataBank

end KnockoutKraken.Cache
