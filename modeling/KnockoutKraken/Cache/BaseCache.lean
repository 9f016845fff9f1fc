import KnockoutKraken.Cache.Databank
import KnockoutKraken.Library.Arbiter

/-!
# The cache around the data bank

Three sources share the bank through a fixed-priority arbiter: the flush
requests of the page manager, the refills that join a queued miss with a
word from memory, and the pipeline. Misses and writebacks leave through a
round-robin arbiter towards the memory port.
-/

namespace KnockoutKraken.Cache

open Library Util

/-- The geometry of a cache; a block has `2 ^ blockBiasW` bytes. -/
structure CacheParams where
  setWidth : Nat
  wayWidth : Nat
  tagWidth : Nat
  blockBiasW : Nat
  refillQueueSize : Nat

namespace CacheParams

variable (params : CacheParams)

abbrev databankParameter : DatabankParams where
  setWidth := params.setWidth
  wayWidth := params.wayWidth
  blockSize := 8 * 2 ^ params.blockBiasW
  tagWidth := params.tagWidth
  asidW := 0
  thidW := 0
  blockSize_pos := Nat.mul_pos (by decide) (Nat.two_pow_pos _)

abbrev PAddr := BitVec (params.tagWidth + params.setWidth + params.blockBiasW)
abbrev Addr := params.databankParameter.Addr
abbrev Block := params.databankParameter.Block

end CacheParams

def cacheUpdateFunction (p : DatabankParams) : UpdateFunction p where
  apply q oldEntry := oldEntry.write q.wData q.wMask false true
  apply_tag _ _ := rfl
  apply_v _ _ _ := rfl
  apply_zero_mask q oldEntry hV hMask := by rw [hMask, CacheEntry.write_zero_mask hV]

variable {params : CacheParams}

def blockAddr (addr : params.PAddr) : params.Addr :=
  addr.extractLsb' params.blockBiasW (params.tagWidth + params.setWidth)

structure CachePipelineReq (params : CacheParams) where
  addr : params.PAddr
  data : params.Block
  wEn : BitVec (2 ^ params.blockBiasW)

/-- Every byte enable stands for the eight bits of its byte. -/
def CachePipelineReq.wMask (req : CachePipelineReq params) : params.Block :=
  (List.range (2 ^ params.blockBiasW)).foldl
    (fun mask byte => if req.wEn.getLsbD byte then mask ||| BitVec.ofNat _ 255 <<< (8 * byte) else mask) 0

def CachePipelineReq.toBank (req : CachePipelineReq params) : BankRequest params.databankParameter :=
  .access (blockAddr req.addr) 0 0 0 req.data req.wMask

def flushToBank (addr : params.PAddr) : BankRequest params.databankParameter := .flush (blockAddr addr) 0

structure MergedBackendRequest (p : DatabankParams) where
  addr : p.Addr
  asid : BitVec p.asidW
  thid : BitVec p.thidW
  perm : BitVec 2
  wV : Bool
  flushV : Bool
  data : p.Block
deriving DecidableEq

namespace BackendRequestMerger

variable {p : DatabankParams}

def readRequestConverted (miss : MissRequest p) : MergedBackendRequest p :=
  ⟨miss.addr, miss.asid, miss.thid, miss.perm, false, false, 0⟩

def writeRequestConverted (writeback : WriteBackRequest p) : MergedBackendRequest p :=
  ⟨writeback.addr, 0, 0, 1, true, writeback.flushV, writeback.data⟩

def valids (read write : Bool) : Fin 2 → Bool := fun i => if i = 0 then read else write

end BackendRequestMerger

structure BaseCache (params : CacheParams) (core : LRUCore params.wayWidth) where
  bank : DataBank params.databankParameter core
  refillQueue : List (MissRequest params.databankParameter)
  lastGrant : Fin 2

namespace BaseCache

variable {core : LRUCore params.wayWidth}

structure Input (params : CacheParams) where
  pipelineReq : CachePipelineReq params
  pipelineValid : Bool
  flushAddr : params.PAddr
  flushValid : Bool
  stallReq : Bool
  axiReqReady : Bool
  axiResp : Option params.Block

def refillQueueOf (params : CacheParams) : FlushQueue := { entries := params.refillQueueSize }

variable (c : BaseCache params core) (i : Input params)

/-- `RefillQueue`: the oldest miss joined with the word the memory returns. -/
def refillRequest : Option (BankRequest params.databankParameter) :=
  match c.refillQueue, i.axiResp with
  | miss :: _, some refillData => some (miss.refillToBank refillData)
  | _, _ => none

def refillReady : Bool := !i.flushValid && !i.stallReq

def pipelineReady : Bool := !i.flushValid && (c.refillRequest i).isNone && !i.stallReq

/-- The request the three-way arbiter shows to the bank, valid or not. -/
def arbiterBits : BankRequest params.databankParameter :=
  if i.flushValid then flushToBank i.flushAddr else (c.refillRequest i).getD i.pipelineReq.toBank

def arbiterValid : Bool := i.flushValid || (c.refillRequest i).isSome || i.pipelineValid

def missRequestO : Option (MissRequest params.databankParameter) := c.bank.s2MissRequestR.head?

def writebackRequestO : Option (WriteBackRequest params.databankParameter) := c.bank.s2WritebackRequestR.head?

def refillEnqReady : Bool :=
  (refillQueueOf params).enqReady c.refillQueue ((c.refillRequest i).isSome && refillReady i)

/-- A miss is offered to the merger only while the refill queue can take it. -/
def mergerValids : Fin 2 → Bool :=
  BackendRequestMerger.valids (c.missRequestO.isSome && c.refillEnqReady i) c.writebackRequestO.isSome

def mergerReady (port : Fin 2) : Bool :=
  RRArbiter.grant (c.mergerValids i) c.lastGrant port && i.axiReqReady

def bankInput : DataBank.Input params.databankParameter where
  request := c.arbiterBits i
  valid := !i.stallReq && c.arbiterValid i
  missReady := c.refillEnqReady i && c.mergerReady i 0
  writebackReady := c.mergerReady i 1

def bankReady : Bool := c.bank.pipelineStateReady0 (c.bankInput i)

def flushReady : Bool := !i.stallReq && c.bankReady i

def handshakes : List (BankRequest params.databankParameter) :=
  (if i.flushValid && c.flushReady i then [flushToBank i.flushAddr] else []) ++
    (if refillReady i then (c.refillRequest i).toList else []) ++
    (if i.pipelineValid && c.pipelineReady i then [i.pipelineReq.toBank] else [])

def entered : Option (BankRequest params.databankParameter) := c.bank.accepted (c.bankInput i)

def missFire : Option (MissRequest params.databankParameter) :=
  if (c.bankInput i).missReady then c.missRequestO else none

def axiReq : Option (MergedBackendRequest params.databankParameter) :=
  if RRArbiter.outValid (c.mergerValids i) c.lastGrant then
    if RRArbiter.chosen (c.mergerValids i) c.lastGrant = 0
    then c.missRequestO.map BackendRequestMerger.readRequestConverted
    else c.writebackRequestO.map BackendRequestMerger.writeRequestConverted
  else none

def axiRespReady : Bool := !c.refillQueue.isEmpty && refillReady i

structure CacheResponse (params : CacheParams) where
  data : params.Block
  hit : Bool
  miss : Bool
  miss2hit : Bool

def pipelineResp : Option (CacheResponse params) :=
  (c.bank.frontendReply (cacheUpdateFunction _) (c.bankInput i)).bind fun reply =>
    if reply.flush then none
    else some
      { data := if reply.refill then reply.wData else reply.rData
        hit := reply.hit
        miss := !reply.hit
        miss2hit := reply.refill }

def next : BaseCache params core where
  bank := c.bank.next (cacheUpdateFunction _) (c.bankInput i)
  refillQueue := (refillQueueOf params).next c.refillQueue (c.missFire i)
    ((c.refillRequest i).isSome && refillReady i)
  lastGrant := RRArbiter.next (c.mergerValids i) c.lastGrant i.axiReqReady

structure Output (params : CacheParams) where
  handshakes : List (BankRequest params.databankParameter)
  entered : Option (BankRequest params.databankParameter)
  axiReq : Option (MergedBackendRequest params.databankParameter)
  pipelineResp : Option (CacheResponse params)

def machine : Machine (BaseCache params core) (Input params) (Output params) where
  next := next
  output c i := ⟨c.handshakes i, c.entered i, if i.axiReqReady then c.axiReq i else none, c.pipelineResp i⟩

/-- Reset; the round-robin register has no reset value. -/
def init (lastGrant : Fin 2) : BaseCache params core := ⟨.init, [], lastGrant⟩

end BaseCache

end KnockoutKraken.Cache
