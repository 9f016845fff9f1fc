import KnockoutKraken.Cache.PageFlush
import KnockoutKraken.Mmu.PageDeletor
import KnockoutKraken.Mmu.QEMUMissReplyHandler
import KnockoutKraken.Mmu.QEMUPageEvictHandler

/-!
# Deletion of pages

The deletor between the two handlers that ask for deletions and the two
caches with their memory ports. One wire tells both handlers that a
deletion is done; for a page that was not modified it is raised before
the host is told.
-/

namespace KnockoutKraken.Mmu

open Library Util Cache Armflex

/-- The geometry of the hierarchy: a page is 64 blocks. -/
structure MemoryHierarchyParams where
  getPageTableParams : PageTableParams
  getCacheParams : CacheParams
  blocks : getPageTableParams.pPageW + 6 = getCacheParams.tagWidth + getCacheParams.setWidth

section Blocks

variable {params : MemoryHierarchyParams}

abbrev MemoryHierarchyParams.Ppn (params : MemoryHierarchyParams) := BitVec params.getPageTableParams.pPageW

def pageBlock (ppn : params.Ppn) (cnt : BitVec 6) : params.getCacheParams.Addr :=
  @blockAddr params.getCacheParams ((ppn ++ cnt ++ (0 : BitVec params.getCacheParams.blockBiasW)).setWidth _)

def pageBlocks (ppn : params.Ppn) : List params.getCacheParams.Addr := (List.range 64).map fun n => pageBlock ppn (.ofNat 6 n)

theorem toNat_append_eq {m n : Nat} (x : BitVec m) (y : BitVec n) : (x ++ y).toNat = x.toNat * 2 ^ n + y.toNat := by
  rw [BitVec.toNat_append, ← Nat.shiftLeft_add_eq_or_of_lt y.isLt, Nat.shiftLeft_eq]

theorem toNat_pageBlock (ppn : params.Ppn) (cnt : BitVec 6) : (pageBlock ppn cnt).toNat = ppn.toNat * 64 + cnt.toNat := by
  have hLt : ppn.toNat * 64 + cnt.toNat < 2 ^ (params.getCacheParams.tagWidth + params.getCacheParams.setWidth) := by
    have hPpn := ppn.isLt
    have hCnt := cnt.isLt
    rw [← params.blocks, pow_add]
    omega
  have hAddr : (ppn.toNat * 64 + cnt.toNat) * 2 ^ params.getCacheParams.blockBiasW <
      2 ^ (params.getCacheParams.tagWidth + params.getCacheParams.setWidth + params.getCacheParams.blockBiasW) := by
    rw [pow_add]
    exact Nat.mul_lt_mul_of_pos_right hLt (Nat.two_pow_pos _)
  have hZero : (0 : BitVec params.getCacheParams.blockBiasW).toNat = 0 := BitVec.toNat_zero
  rw [pageBlock, blockAddr, BitVec.extractLsb'_toNat, BitVec.toNat_setWidth, toNat_append_eq, toNat_append_eq, hZero,
    Nat.add_zero, (by rfl : 2 ^ 6 = 64), Nat.mod_eq_of_lt hAddr, Nat.shiftRight_eq_div_pow, Nat.mul_div_cancel _ (Nat.two_pow_pos _)]
  exact Nat.mod_eq_of_lt hLt

theorem pageBlock_inj {ppn : params.Ppn} {cnt cnt' : BitVec 6} (h : pageBlock ppn cnt = pageBlock ppn cnt') : cnt = cnt' := by
  have hNat := congrArg BitVec.toNat h
  rw [toNat_pageBlock, toNat_pageBlock] at hNat
  exact BitVec.eq_of_toNat_eq (by omega)

/-- The 64 flushes of a page are those of the blocks in it. -/
theorem mem_pageBlocks_iff (ppn : params.Ppn) (addr : params.getCacheParams.Addr) :
    addr ∈ pageBlocks ppn ↔ addr.toNat / 64 = ppn.toNat := by
  rw [pageBlocks, List.mem_map]
  constructor
  · rintro ⟨n, hn, rfl⟩
    rw [List.mem_range] at hn
    rw [toNat_pageBlock, BitVec.toNat_ofNat]
    omega
  · intro hPage
    refine ⟨addr.toNat % 64, List.mem_range.mpr (Nat.mod_lt _ (by decide)), BitVec.eq_of_toNat_eq ?_⟩
    rw [toNat_pageBlock, BitVec.toNat_ofNat]
    omega

theorem pageBlocks_nodup (ppn : params.Ppn) : (pageBlocks ppn).Nodup := by
  refine List.Nodup.map_on (fun n hn n' hn' hEq => ?_) List.nodup_range
  have hCnt := congrArg BitVec.toNat (pageBlock_inj hEq)
  rw [List.mem_range] at hn hn'
  rw [BitVec.toNat_ofNat, BitVec.toNat_ofNat] at hCnt
  omega

end Blocks

structure PageDeletion (params : MemoryHierarchyParams) (core : LRUCore params.getCacheParams.wayWidth) where
  deletor : PageDeletor params.getPageTableParams
  missHandler : QEMUMissReplyHandler params.getPageTableParams
  evictHandler : QEMUPageEvictHandler params.getPageTableParams
  caches : Fin 2 → MemoryPort params.getCacheParams core

namespace PageDeletion

open PageDeletorState

variable {params : MemoryHierarchyParams} {core : LRUCore params.getCacheParams.wayWidth}

/-- The wires of one cycle that the rest of the machine drives; those of a cache that the deletor
drives are not read. -/
structure Input (params : MemoryHierarchyParams) where
  flushPermReqReady : Fin 2 → Bool
  flushCompledReady : Fin 2 → Bool
  tlbFlushReady : Fin 2 → Bool
  tlbFlushResp : Fin 2 → Option (TLBPipelineResp params.getPageTableParams)
  startMessageReady : Bool
  doneMessageReady : Bool
  qemuMissReply : Option (QEMUMissReply params.getPageTableParams)
  tlbBackendReplyReady : Bool
  missMoved : Moved SetWords
  evictRequest : Option (QEMUPageEvictRequest params.getPageTableParams)
  evictMoved : Moved SetWords
  ports : Fin 2 → MemoryPort.Input params.getCacheParams

variable (s : PageDeletion params core) (i : Input params)

section Wires

variable (params) in
def queueSize : Nat := 2 ^ params.getPageTableParams.thidW + 1

def portInput (k : Fin 2) : MemoryPort.Input params.getCacheParams :=
  { i.ports k with
    flushAddr := (s.deletor.cacheFlushAddr params.getCacheParams.blockBiasW).setWidth _
    flushValid := s.deletor.cacheFlushRequestValid k
    stallReq := s.deletor.stallVO k }

def cacheInput (k : Fin 2) : BaseCache.Input params.getCacheParams :=
  (s.caches k).cacheInput (queueSize params) (s.portInput i k)

def bankInput (k : Fin 2) : DataBank.Input params.getCacheParams.databankParameter :=
  (s.caches k).bankInput (queueSize params) (s.portInput i k)

def missReqO : Option (PageTableItem params.getPageTableParams) :=
  if s.missHandler.stateR = .sDeletePageReq then some s.missHandler.victimR else none

def evictReqO : Option (PageTableItem params.getPageTableParams) :=
  if s.evictHandler.stateR = .sDeletePageReq then some s.evictHandler.victimR else none

/-- The request of the reply handler goes first. -/
def deletorInput : PageDeletor.Input params.getPageTableParams where
  pageDeleteReqI := s.missReqO.or s.evictReqO
  flushPermReqReady := i.flushPermReqReady
  flushCompledReady := i.flushCompledReady
  tlbFlushRequestReady := i.tlbFlushReady
  tlbFrontendReplyI := i.tlbFlushResp
  startMessageReady := i.startMessageReady
  cacheFlushRequestReady k := (s.caches k).cache.flushReady (s.cacheInput i k)
  wbQueueEmptyI k := (s.caches k).requests.isEmpty
  doneMessageReady := i.doneMessageReady

def doneO : Bool := s.deletor.doneO (s.deletorInput i)

def missInput : QEMUMissReplyHandler.Input params.getPageTableParams :=
  ⟨i.qemuMissReply, s.deletor.pageDeleteReqReady, s.doneO i, i.tlbBackendReplyReady⟩

def evictInput : QEMUPageEvictHandler.Input params.getPageTableParams :=
  ⟨i.evictRequest, s.deletor.pageDeleteReqReady && s.missReqO.isNone, s.doneO i⟩

end Wires

def next : PageDeletion params core where
  deletor := s.deletor.next (s.deletorInput i)
  missHandler := s.missHandler.next (s.missInput i) i.missMoved
  evictHandler := s.evictHandler.next (s.evictInput i) i.evictMoved
  caches k := (s.caches k).next (queueSize params) (s.portInput i k)

/-- Reset; the registers that have no reset value are arbitrary. -/
def init (item : PageTableItem params.getPageTableParams) (missHandler : QEMUMissReplyHandler params.getPageTableParams)
    (evictHandler : QEMUPageEvictHandler params.getPageTableParams) (lastGrant : Fin 2 → Fin 2) :
    PageDeletion params core where
  deletor := .init item
  missHandler := { missHandler with stateR := .sIdle }
  evictHandler := { evictHandler with stateR := .sIdle }
  caches k := .init (lastGrant k)

end PageDeletion

/-- What a deletion does that others see. -/
inductive DeletionEvent (params : MemoryHierarchyParams) where
  | message (message : PageEvictNotification params.getPageTableParams)
  | flush (which : Fin 2) (addr : params.getCacheParams.Addr)
deriving DecidableEq

inductive DeletionOwner where
  | missReply | pageEvict
deriving DecidableEq

/-- The machine with a record of the deletion under way: whose it is, what it did, the banks when
the unit granted it, and the writes that memory finished since. -/
structure WatchedDeletion (params : MemoryHierarchyParams) (core : LRUCore params.getCacheParams.wayWidth) where
  machine : PageDeletion params core
  owner : DeletionOwner
  events : List (DeletionEvent params)
  granted : Fin 2 → params.getCacheParams.databankParameter.SetIndex →
    params.getCacheParams.databankParameter.Way → CacheEntry params.getCacheParams.databankParameter
  written : Fin 2 → List (Cache2AXIAdaptor.Request params.getCacheParams)

namespace WatchedDeletion

open PageDeletorState PageDeletion

variable {params : MemoryHierarchyParams} {core : LRUCore params.getCacheParams.wayWidth}
  (s : WatchedDeletion params core) (i : PageDeletion.Input params)

abbrev deletor : PageDeletor params.getPageTableParams := s.machine.deletor

abbrev deletorInput : PageDeletor.Input params.getPageTableParams := s.machine.deletorInput i

def flushesEntered (k : Fin 2) : List (DeletionEvent params) :=
  (((s.machine.caches k).cache.bank.accepted (s.machine.bankInput i k)).filter fun q => q.packet.flushV).toList.map
    fun q => .flush k q.packet.addr

def emitted : List (DeletionEvent params) :=
  (s.deletor.startMessageFire (s.deletorInput i)).toList.map .message ++
    (s.flushesEntered i 0 ++ s.flushesEntered i 1) ++
    (s.deletor.doneMessageFire (s.deletorInput i)).toList.map .message

def accepted : Bool := (s.deletor.pageDeleteReqFire (s.deletorInput i)).isSome

def grantFire : Bool := s.deletor.flushPermissionRequestFire (s.deletorInput i)

def doneFire : Bool := (s.deletor.doneMessageFire (s.deletorInput i)).isSome

def next : WatchedDeletion params core where
  machine := s.machine.next i
  owner := if s.accepted i then (if s.machine.missReqO.isSome then .missReply else .pageEvict) else s.owner
  events := if s.accepted i then [] else s.events ++ s.emitted i
  granted k := if s.grantFire i then (s.machine.caches k).cache.bank.bram.mem else s.granted k
  written k := if s.grantFire i then [] else s.written k ++ ((s.machine.caches k).writeFire (s.machine.portInput i k)).toList

def machineOf : Machine (WatchedDeletion params core) (PageDeletion.Input params) (List (DeletionEvent params)) where
  next := next
  output := emitted

def start (s : PageDeletion params core) : WatchedDeletion params core :=
  ⟨s, .missReply, [], fun k => (s.caches k).cache.bank.bram.mem, fun _ => []⟩

end WatchedDeletion

end KnockoutKraken.Mmu
