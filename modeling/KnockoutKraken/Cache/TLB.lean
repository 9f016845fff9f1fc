import KnockoutKraken.Armflex.SoftwareBundle
import KnockoutKraken.Cache.Databank

/-!
# Translation buffers

A translation buffer is a data bank whose address is the pair of address
space and virtual page and whose block is the packed page table entry. A
store translation writes the modified bit, a refill brings in an entry.
-/

namespace KnockoutKraken.Cache

open Armflex

namespace TLB

variable (params : PageTableParams)

abbrev databankParams : DatabankParams where
  setWidth := params.tlbSetWidth
  wayWidth := params.tlbWayWidth
  blockSize := PTEntryPacket.width params
  tagWidth := params.asidW + params.vPageW - params.tlbSetWidth
  asidW := params.asidW
  thidW := params.thidW
  blockSize_pos := Nat.succ_pos _

variable {params}

/-- The tag as a bank address, the address space in the high bits. -/
def bankAddr (tag : PTTagPacket params) : (databankParams params).Addr := (tag.asid ++ tag.vpn).setWidth _

/-- The permission check reads a bank entry through the type of a page table entry,
so it sees the low bits of the whole entry: `d` as the modified bit, and `v` below
the modified bit as the permission. -/
def tlbUpdateFunction (params : PageTableParams) : UpdateFunction (databankParams params) where
  apply q oldEntry :=
    let oldBits := oldEntry.tag ++ oldEntry.data ++ BitVec.ofBool oldEntry.v ++ BitVec.ofBool oldEntry.d
    let oldTLBEntry : PTEntryPacket params := .ofUInt (oldBits.setWidth _)
    if oldTLBEntry.permValid q.perm then oldEntry.write q.wData q.wMask false true else oldEntry
  apply_tag q oldEntry := by
    simp only
    split <;> rfl
  apply_v q oldEntry hV := by
    simp only
    split
    · rfl
    · exact hV
  apply_zero_mask q oldEntry hV hMask := by
    simp only
    split
    · rw [hMask, CacheEntry.write_zero_mask hV]
    · rfl

def modifiedPte : PTEntryPacket params := ⟨0, 0, true⟩

/-- A translation request; only a store writes, and it writes the modified bit. -/
def translationToBank (tag : PTTagPacket params) (perm : BitVec permW) (thid : BitVec params.thidW) :
    BankRequest (databankParams params) :=
  .access (bankAddr tag) tag.asid thid perm modifiedPte.asUInt
    (if perm = dataStore then modifiedPte.asUInt else 0)

def flushToBank (tag : PTTagPacket params) : BankRequest (databankParams params) :=
  .flush (bankAddr tag) tag.asid

def refillToBank (resp : TLBMMURespPacket params) : BankRequest (databankParams params) :=
  .refill (bankAddr resp.tag) resp.tag.asid resp.thid 0 0 resp.data.asUInt

end TLB

structure TLBPipelineReq (params : PageTableParams) where
  tag : PTTagPacket params
  perm : BitVec permW
  thid : BitVec params.thidW
deriving DecidableEq

structure TLBPipelineResp (params : PageTableParams) where
  entry : PTEntryPacket params
  hit : Bool
  violation : Bool
  thid : BitVec params.thidW
deriving DecidableEq

/-- The bank of the buffer, the queue of its misses, and the permission that was on the request lines one cycle ago. -/
structure TLB (params : PageTableParams) (core : LRUCore params.tlbWayWidth) where
  bank : DataBank (TLB.databankParams params) core
  missReqQueue : List (MissRequest (TLB.databankParams params))
  permR : BitVec permW

namespace TLB

open Util

variable {params : PageTableParams} {core : LRUCore params.tlbWayWidth}

structure Input (params : PageTableParams) where
  translationReq : TLBPipelineReq params
  translationValid : Bool
  flushReq : Option (PTTagPacket params)
  refillResp : Option (TLBMMURespPacket params)
  missReqReady : Bool
  writebackReqReady : Bool

/-- One place more than there are threads, for a refill. -/
def missQueue (params : PageTableParams) : FlushQueue := { entries := 2 ^ params.thidW + 1 }

variable (t : TLB params core) (i : Input params)

def pipelineBits : BankRequest (databankParams params) :=
  translationToBank i.translationReq.tag i.translationReq.perm i.translationReq.thid

/-- The request the three-way arbiter shows: flushes go before refills, and refills before the pipeline. -/
def arbiterBits : BankRequest (databankParams params) :=
  match i.flushReq, i.refillResp with
  | some tag, _ => flushToBank tag
  | none, some resp => refillToBank resp
  | none, none => pipelineBits i

def arbiterValid : Bool := i.flushReq.isSome || i.refillResp.isSome || i.translationValid

/-- The writeback of a flush has its own path and is dropped here. -/
def writebackReady : Bool :=
  match t.bank.s2WritebackRequestR.head? with
  | some writeback => writeback.flushV || i.writebackReqReady
  | none => i.writebackReqReady

def bankInput : DataBank.Input (databankParams params) where
  request := arbiterBits i
  valid := arbiterValid i
  missReady := (missQueue params).enqReady t.missReqQueue i.missReqReady
  writebackReady := t.writebackReady i

def bankReady : Bool := t.bank.pipelineStateReady0 (t.bankInput i)

def translationReady : Bool := i.flushReq.isNone && i.refillResp.isNone && t.bankReady i

def refillReady : Bool := i.flushReq.isNone && t.bankReady i

def reply : Option (FrontendReply (databankParams params)) := t.bank.frontendReply (tlbUpdateFunction params) (t.bankInput i)

def repliedPte (reply : FrontendReply (databankParams params)) : PTEntryPacket params := .ofUInt reply.rData

/-- The violation is judged by the permission that was on the request lines one cycle ago. -/
def translationResp : Option (TLBPipelineResp params) :=
  ((t.reply i).filter fun reply => !reply.flush && !reply.refill).map fun reply =>
    { entry := repliedPte reply
      hit := reply.hit
      violation := !(repliedPte reply).permValid t.permR
      thid := reply.thid }

def flushResp : Option (TLBPipelineResp params) :=
  ((t.reply i).filter FrontendReply.flush).map fun reply => ⟨repliedPte reply, reply.hit, false, reply.thid⟩

def wakeAfterMiss : Option (BitVec params.thidW) := (i.refillResp.filter fun _ => t.refillReady i).map TLBMMURespPacket.thid

def tagOfAddr (addr : (databankParams params).Addr) : PTTagPacket params where
  vpn := addr.setWidth _
  asid := (addr >>> params.vPageW).setWidth _

def missReq : Option (TLBMissRequestMessage params) :=
  t.missReqQueue.head?.map fun miss => ⟨⟨miss.addr.setWidth _, miss.asid⟩, miss.perm, miss.thid⟩

def writebackReq : Option (TLBEvictionMessage params) :=
  (t.bank.s2WritebackRequestR.head?.filter fun writeback => !writeback.flushV).map fun writeback =>
    ⟨tagOfAddr writeback.addr, .ofUInt writeback.data⟩

def bankOutput : DataBank.Output (databankParams params) := t.bank.output (tlbUpdateFunction params) (t.bankInput i)

def next : TLB params core where
  bank := t.bank.next (tlbUpdateFunction params) (t.bankInput i)
  missReqQueue := (missQueue params).next t.missReqQueue (t.bankOutput i).miss i.missReqReady
  permR := i.translationReq.perm

/-- Reset; the delayed permission has no reset value. -/
def init (permR : BitVec permW) : TLB params core := ⟨.init, [], permR⟩

end TLB

end KnockoutKraken.Cache
