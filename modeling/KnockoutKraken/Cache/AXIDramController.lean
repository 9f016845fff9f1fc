import KnockoutKraken.Cache.BaseCache

/-!
# The memory port

The adaptor queues the requests of a cache and shows the oldest one at
its read or its write port until the engine behind the port is done.
`MemoryPort` is a cache wired to its adaptor.
-/

namespace KnockoutKraken.Cache

open Library Util

structure AXIRequest (addrW : Nat) where
  address : BitVec addrW
  length : Nat
deriving DecidableEq

namespace Cache2AXIAdaptor

variable {params : CacheParams}

abbrev Request (params : CacheParams) := MergedBackendRequest params.databankParameter

def byteAddress (addr : params.Addr) : params.PAddr := addr ++ (0 : BitVec params.blockBiasW)

def queueOf (queueSize : Nat) : FlushQueue := { entries := queueSize }

/-- The queue of backend requests moves on when the engine that serves its head is done. -/
def headDone (requests : List (Request params)) (readDone writeDone : Bool) : Bool :=
  match requests with
  | request :: _ => if request.wV then writeDone else readDone
  | [] => false

def readReq (requests : List (Request params)) :
    Option (AXIRequest (params.tagWidth + params.setWidth + params.blockBiasW)) :=
  (requests.head?.filter fun request => !request.wV).map fun request => ⟨byteAddress request.addr, 1⟩

def writeReq (requests : List (Request params)) :
    Option (AXIRequest (params.tagWidth + params.setWidth + params.blockBiasW) × params.Block) :=
  (requests.head?.filter fun request => request.wV).map fun request => (⟨byteAddress request.addr, 1⟩, request.data)

end Cache2AXIAdaptor

structure MemoryPort (params : CacheParams) (core : LRUCore params.wayWidth) where
  cache : BaseCache params core
  requests : List (Cache2AXIAdaptor.Request params)

namespace MemoryPort

open Cache2AXIAdaptor

variable {params : CacheParams} {core : LRUCore params.wayWidth}

/-- The wires of one cycle: the sources of the cache, and the two engines behind the port. -/
structure Input (params : CacheParams) where
  pipelineReq : CachePipelineReq params
  pipelineValid : Bool
  flushAddr : params.PAddr
  flushValid : Bool
  stallReq : Bool
  readData : Option params.Block
  readDone : Bool
  writeDone : Bool

variable (queueSize : Nat) (s : MemoryPort params core) (i : Input params)

def headDone : Bool := Cache2AXIAdaptor.headDone s.requests i.readDone i.writeDone

def reqReady : Bool := (queueOf queueSize).enqReady s.requests (s.headDone i)

def cacheInput : BaseCache.Input params where
  pipelineReq := i.pipelineReq
  pipelineValid := i.pipelineValid
  flushAddr := i.flushAddr
  flushValid := i.flushValid
  stallReq := i.stallReq
  axiReqReady := s.reqReady queueSize i
  axiResp := i.readData

def merged : Option (Request params) :=
  if s.reqReady queueSize i then s.cache.axiReq (s.cacheInput queueSize i) else none

def next : MemoryPort params core where
  cache := s.cache.next (s.cacheInput queueSize i)
  requests := (queueOf queueSize).next s.requests (s.merged queueSize i) (s.headDone i)

def init (lastGrant : Fin 2) : MemoryPort params core := ⟨.init lastGrant, []⟩

end MemoryPort

end KnockoutKraken.Cache
