import KnockoutKraken.Mmu.Atomicity
import KnockoutKraken.Mmu.PageTable

/-!
# Messages of the host

The decoder parses the messages of the host and puts them into a queue
for each type; the heads of the queues are offered to the handlers. The
messages of the other types are taken and have no effect here.
-/

namespace KnockoutKraken.Mmu

open Library Armflex

variable {params : PageTableParams} {tlbs : Nat}

namespace QEMUMessagesType

def sMissReply : BitVec 3 := 2
def sPageEvict : BitVec 3 := 7

end QEMUMessagesType

/-- The message as the shell hands it over: sixteen words of 32 bits, the type in the first. -/
abbrev TxMessage := BitVec (16 * 32)

namespace TxMessage

variable (raw : TxMessage)

def messageType : BitVec 3 := (unpackVec raw 0).setWidth 3

def data (k : Fin 15) : BitVec 32 := unpackVec raw k.succ

end TxMessage

def parseTag (f : Fin 15 → BitVec 32) : PTTagPacket params where
  asid := (f 0).setWidth params.asidW
  vpn := (f 2 ++ f 1).setWidth params.vPageW

def parseMissReply (f : Fin 15 → BitVec 32) : QEMUMissReply params where
  tag := parseTag f
  perm := (f 3).setWidth permW
  thid := (f 4).setWidth params.thidW
  thidV := f 4 != -1
  ppn := (f 5).setWidth params.pPageW

def parsePageEvict (f : Fin 15 → BitVec 32) : QEMUPageEvictRequest params := ⟨parseTag f⟩

inductive HostMessage (params : PageTableParams) where
  | missReply (request : QEMUMissReply params)
  | pageEvict (request : QEMUPageEvictRequest params)
deriving DecidableEq

namespace HostMessage

def tag : HostMessage params → PTTagPacket params
  | missReply request => request.tag
  | pageEvict request => request.tag

def handler : HostMessage params → MMUHandler
  | missReply _ => .missReply
  | pageEvict _ => .pageEvict

def op : HostMessage params → Operation params tlbs
  | missReply request => .missReply request
  | pageEvict request => .pageEvict request

def isMissReply : HostMessage params → Bool
  | missReply _ => true
  | pageEvict _ => false

def parse (raw : TxMessage) : Option (HostMessage params) :=
  if raw.messageType = QEMUMessagesType.sMissReply then some (.missReply (parseMissReply raw.data))
  else if raw.messageType = QEMUMessagesType.sPageEvict then some (.pageEvict (parsePageEvict raw.data))
  else none

end HostMessage

/-- The queues of the decoder before the page table and its handlers, with the messages that were
taken from the host in the order sent, and those of them that have not taken effect. -/
structure MessageUnit (params : PageTableParams) (tlbs : Nat) where
  qemuMissReplyQ : List (QEMUMissReply params)
  qemuEvictPageReqQ : List (QEMUPageEvictRequest params)
  unit : PageTableUnit params tlbs
  log : Log (HostMessage params)
  sent : List (HostMessage params)

namespace MessageUnit

inductive Input (params : PageTableParams) (tlbs : Nat) where
  | message (raw : TxMessage)
  | cycle (i : PageTableUnit.Input params tlbs)

variable (fifoDepth : Nat) (g : MessageUnit params tlbs)

def messageFire (raw : TxMessage) : Option (HostMessage params) :=
  match HostMessage.parse raw with
  | some (.missReply request) =>
    if g.qemuMissReplyQ.length < fifoDepth then some (.missReply request) else none
  | some (.pageEvict request) =>
    if g.qemuEvictPageReqQ.length < fifoDepth then some (.pageEvict request) else none
  | none => none

/-- The two handlers of host messages are offered the heads of the queues. -/
def unitInput (i : PageTableUnit.Input params tlbs) : PageTableUnit.Input params tlbs :=
  match i with
  | ⟨.missReply, c⟩ => ⟨.missReply, { c with handler := { c.handler with qemuMissReplyI := g.qemuMissReplyQ.head? } }⟩
  | ⟨.pageEvict, c⟩ => ⟨.pageEvict, { c with handler := { c.handler with evictRequestI := g.qemuEvictPageReqQ.head? } }⟩
  | ⟨.pageWalker, c⟩ => ⟨.pageWalker, c⟩
  | ⟨.tlbWriteback, c⟩ => ⟨.tlbWriteback, c⟩

def takes (k : MMUHandler) (i : PageTableUnit.Input params tlbs) : Bool :=
  decide (i.1 = k) && (g.unit.accepted (g.unitInput i)).isSome

def nextMessage (raw : TxMessage) : MessageUnit params tlbs :=
  match g.messageFire fifoDepth raw with
  | some message =>
    { g with
      qemuMissReplyQ := match message with
        | .missReply request => g.qemuMissReplyQ ++ [request]
        | .pageEvict _ => g.qemuMissReplyQ
      qemuEvictPageReqQ := match message with
        | .missReply _ => g.qemuEvictPageReqQ
        | .pageEvict request => g.qemuEvictPageReqQ ++ [request]
      log := g.log.emit (some message)
      sent := g.sent ++ [message] }
  | none => g

def nextCycle (i : PageTableUnit.Input params tlbs) : MessageUnit params tlbs where
  qemuMissReplyQ := if g.takes .missReply i then g.qemuMissReplyQ.tail else g.qemuMissReplyQ
  qemuEvictPageReqQ := if g.takes .pageEvict i then g.qemuEvictPageReqQ.tail else g.qemuEvictPageReqQ
  unit := g.unit.next writeWords (Operation.effect params tlbs) (g.unitInput i)
  log :=
    if g.unit.settles (Operation.effect params tlbs) (g.unitInput i) then
      g.log.pass fun message => decide (message.handler = i.1)
    else g.log
  sent := g.sent

def next : Input params tlbs → MessageUnit params tlbs
  | .message raw => g.nextMessage fifoDepth raw
  | .cycle i => g.nextCycle i

def machine (params : PageTableParams) (tlbs fifoDepth : Nat) :
    Machine (MessageUnit params tlbs) (Input params tlbs) Unit where
  next := next fifoDepth
  output _ _ := ()

def init (table : BitVec params.pPageW → SetWords) (reset : PageTableUnit.Reset params tlbs) : MessageUnit params tlbs :=
  ⟨[], [], PageTableUnit.init table reset, .empty, []⟩

/-- The operations that took effect, in that order. -/
def effects : List (Operation params tlbs) := g.unit.log.passed.map fun e => e.2.2

end MessageUnit

end KnockoutKraken.Mmu
