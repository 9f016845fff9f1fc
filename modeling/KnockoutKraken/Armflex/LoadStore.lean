import KnockoutKraken.Armflex.Commit
import KnockoutKraken.Armflex.MemoryInterface
import KnockoutKraken.Library.Machine

/-!
# The memory unit

A memory instruction is translated, waits for the cache, accesses it once
or, when it is a pair over two blocks, twice, and is packed into the
instruction that commits. A pair over two pages is to be translated twice
before it waits for the cache.
-/

namespace KnockoutKraken.Armflex

open Library Util

universe u

structure MemReq where
  addr : Word
  data : Word
  reg : BitVec 5
deriving DecidableEq

structure MInst (thidW : Nat) where
  size : BitVec 2
  isPair : Bool
  isLoad : Bool
  is32bit : Bool
  isSigned : Bool
  req : Fin 2 → MemReq
  rdRes : Word
  rd : Option (BitVec 5)
  tag : BitVec thidW
deriving DecidableEq

def MInst.perm {thidW : Nat} (inst : MInst thidW) : BitVec permW := if inst.isLoad then dataLoad else dataStore

/-- The halves of the pair lie in different pages, by the lowest bit of the page. -/
def MInst.isPairPageMisaligned {thidW : Nat} (inst : MInst thidW) : Bool :=
  inst.isPair && decide ((inst.req 0).addr.getLsbD 12 ≠ (inst.req 1).addr.getLsbD 12)

/-- A translated memory instruction; each of its two addresses has its own translation. -/
structure MemPending (params : PipelineParams) (Λ : Type u) where
  inst : MInst params.thidW
  blockMisaligned : Bool
  firstIsCompleted : Bool
  paddr : Fin 2 → Labelled Λ params.PAddr
deriving DecidableEq

namespace MemPending

variable {params : PipelineParams} {Λ : Type u} (m : MemPending params Λ)

def singleAccessPair : Bool := m.inst.isPair && !m.blockMisaligned

def secondAccessPair : Bool := m.inst.isPair && m.firstIsCompleted

def selReqIdx : Fin 2 := if m.secondAccessPair then 1 else 0

def maskByteEn : Nat :=
  match m.inst.size.toNat + m.singleAccessPair.toNat with
  | 0 => 2 ^ 1 - 1
  | 1 => 2 ^ 2 - 1
  | 2 => 2 ^ 4 - 1
  | 3 => 2 ^ 8 - 1
  | 4 => 2 ^ 16 - 1
  | _ => 1

def place (k : Fin 2) : params.Block :=
  (m.inst.req k).data.setWidth _ <<< (8 * (params.blockAddrBits (m.inst.req k).addr).toNat)

def wEn : params.ByteEn :=
  if m.inst.isLoad then 0
  else BitVec.ofNat _ m.maskByteEn <<< (params.blockAddrBits (m.inst.req m.selReqIdx).addr).toNat

def data : params.Block := if m.singleAccessPair then m.place 1 ||| m.place 0 else m.place m.selReqIdx

def cacheRequest : CacheRequest params := ⟨(m.paddr m.selReqIdx).bits, m.data, m.wEn⟩

def respPairIdx : Fin 2 := if m.firstIsCompleted then 1 else 0

def alignedDataResp (block : params.Block) : params.Block :=
  block >>> (8 * (params.blockAddrBits (m.inst.req m.respPairIdx).addr).toNat)

/-- The answer is for the first half of a pair in two blocks. -/
def needsSecondAccess : Bool := m.inst.isPair && m.blockMisaligned && !m.firstIsCompleted

/-- The instruction with its first half done; the loaded data replaces the stored one. -/
def firstCompleted (block : params.Block) : MemPending params Λ where
  inst :=
    { m.inst with
      req := fun k => if k = 0 then { m.inst.req 0 with data := (m.alignedDataResp block).setWidth 64 } else m.inst.req k }
  blockMisaligned := m.blockMisaligned
  firstIsCompleted := true
  paddr := m.paddr

def memData (block : params.Block) (k : Fin 2) : Word :=
  if m.inst.isPair then
    if m.blockMisaligned then
      if k = 0 then (m.inst.req 0).data else (m.alignedDataResp block).setWidth 64
    else if k = 0 then (m.alignedDataResp block).setWidth 64
    else (m.alignedDataResp block >>> (8 * 2 ^ m.inst.size.toNat)).setWidth 64
  else if k = 0 then (m.alignedDataResp block).setWidth 64 else 0

/-- The low bits of a word that an access of this size loads, extended by zeros or the sign. -/
def signExtendData (bits : Word) (size : BitVec 2) (sign : Bool) : Word :=
  let w := 8 * 2 ^ size.toNat
  if sign then (bits.setWidth w).signExtend 64 else (bits.setWidth w).setWidth 64

def done (block : params.Block) : CommitInst params.thidW where
  tag := m.inst.tag
  rd := fun k =>
    if k = 0 then m.inst.rd
    else if k = 1 then if m.inst.isLoad then some (m.inst.req 0).reg else none
    else if m.inst.isLoad && m.inst.isPair then some (m.inst.req 1).reg else none
  res := fun k =>
    if k = 0 then m.inst.rdRes
    else if k = 1 then signExtendData (m.memData block 0) m.inst.size m.inst.isSigned
    else signExtendData (m.memData block 1) m.inst.size m.inst.isSigned
  nzcv := none
  brTaken := none
  exceptions := false
  undef := false
  is32bit := m.inst.is32bit

end MemPending

inductive STLBState where
  | req | intermediateResp | pairReq
deriving DecidableEq

structure MemoryUnit (params : PipelineParams) (Λ : Type u) where
  tlbReqQ : RamQueue 1 (MInst params.thidW)
  tlbMeta : MInst params.thidW
  tlbPairPaddr1 : Labelled Λ params.PAddr
  sTLBState : STLBState
  cacheReqQ : List (MemPending params Λ)
  cacheReqMisalignedQ : List (MemPending params Λ)
  cacheAdaptor : DoubleLatencyQueue (MemPending params Λ)
  doneInst : List (CommitInst params.thidW)
  tlb2cacheCredits : CreditQueueController 3
  cache2cacheMisalignedCredits : CreditQueueController 3
  cache2doneInstCredits : CreditQueueController 4
  flushState : FlushState

namespace MemoryUnit

open STLBState

variable {params : PipelineParams} {Λ : Type u}

def cacheReqQueue : FlushQueue := { entries := 3, pipe := true }

def cacheReqMisalignedQueue : FlushQueue := { entries := 3, pipe := true }

def doneInstQueue : FlushQueue := { entries := 4, pipe := true }

/-- The places of the two queues behind the cache. -/
def cacheInstsFlightEntries : Nat := doneInstQueue.entries + cacheReqMisalignedQueue.entries

structure Input (params : PipelineParams) (Λ : Type u) where
  req : Option (MInst params.thidW)
  tlbReqReady : Bool
  tlbResp : Option (PipeTLBResp params Λ)
  cacheReqReady : Bool
  cacheResp : Option (CacheResponse params)
  respReady : Bool
  mmu : PipeMMUPort

variable (u : MemoryUnit params Λ) (i : Input params Λ)

def stopTransactions : Bool := CacheFlushingController.stopTransactions u.flushState

section CacheRequest

def portReady : Bool := CacheInterface.reqReady cacheInstsFlightEntries u.cacheAdaptor i.cacheReqReady

/-- The second half of a pair goes first. -/
def misalignedSelected : Bool := !u.cacheReqMisalignedQ.isEmpty && u.cache2doneInstCredits.ready

/-- Room behind the cache for the answer of the head of the request queue. -/
def cacheReqCredit : Bool :=
  if u.cacheReqQ.head?.any MemPending.blockMisaligned then u.cache2cacheMisalignedCredits.ready
  else u.cache2doneInstCredits.ready

def misalignedDeqReady : Bool := u.portReady i && u.misalignedSelected

def cacheReqDeqReady : Bool := u.portReady i && !u.misalignedSelected && u.cacheReqCredit

def pipeMeta : Option (MemPending params Λ) :=
  if u.cacheReqMisalignedQ.isEmpty then u.cacheReqQ.head? else u.cacheReqMisalignedQ.head?

def portValid : Bool :=
  u.portReady i && if u.misalignedSelected then true else !u.cacheReqQ.isEmpty && u.cacheReqCredit

def cacheReqFired : Option (MemPending params Λ) :=
  if CacheInterface.cacheValid cacheInstsFlightEntries u.cacheAdaptor (u.portValid i) && i.cacheReqReady
  then u.pipeMeta else none

end CacheRequest

section TLB

def head : MInst params.thidW := u.tlbReqQ.deqBits

/-- No answer is taken between the two translations of a pair. -/
def tlbRespReady : Bool :=
  cacheReqQueue.enqReady u.cacheReqQ (u.cacheReqDeqReady i) && decide (u.sTLBState ≠ intermediateResp)

def tlbRespFire : Option (PipeTLBResp params Λ) := i.tlbResp.filter fun _ => u.tlbRespReady i

def tlbReqValid : Bool :=
  u.tlbReqQ.deqValid && u.tlb2cacheCredits.ready && decide (u.sTLBState ≠ intermediateResp) && !u.stopTransactions

def tlbReqFire : Bool := u.tlbReqValid && i.tlbReqReady

/-- A translation the unit gives up: a miss, which the memory hierarchy handles, or a violation. -/
def ditched (resp : PipeTLBResp params Λ) : Bool := !resp.hit || resp.violation

def tlbReqDeqReady : Bool :=
  !u.stopTransactions &&
    match u.sTLBState with
    | req => i.tlbReqReady && u.tlb2cacheCredits.ready && !(u.tlbReqFire i && u.head.isPairPageMisaligned)
    | intermediateResp => (u.tlbRespFire i).any ditched
    | pairReq => i.tlbReqReady && u.tlb2cacheCredits.ready

def tlbReqDeqFire : Bool := u.tlbReqQ.doDeq (u.tlbReqDeqReady i)

/-- The request lines, valid or not. -/
def tlbReqBits : PipeTLBReq params where
  addr := if u.sTLBState = pairReq then (u.head.req 1).addr else (u.head.req 0).addr
  thid := u.head.tag
  perm := u.head.perm

def tlbReq : Option (PipeTLBReq params) := if u.tlbReqFire i then some u.tlbReqBits else none

def sTLBStateNext : STLBState :=
  match u.sTLBState with
  | req => if u.tlbReqFire i && u.head.isPairPageMisaligned then intermediateResp else req
  | intermediateResp =>
    match u.tlbRespFire i with
    | some resp => if ditched resp then req else pairReq
    | none => intermediateResp
  | pairReq => if u.tlbReqFire i then req else pairReq

/-- The two addresses of the answered instruction. The offsets are those of the instruction shown by
the request queue; the second page is the first one, `2 ^ size` bytes on, unless the pair has two pages. -/
def paddr (resp : PipeTLBResp params Λ) (k : Fin 2) : Labelled Λ params.PAddr :=
  if u.tlbMeta.isPairPageMisaligned then
    if k = 0 then ⟨u.tlbPairPaddr1.bits ||| params.pageOffset (u.head.req 0).addr, u.tlbPairPaddr1.label⟩
    else ⟨resp.addr ||| params.pageOffset (u.head.req 1).addr, resp.label⟩
  else if k = 0 then ⟨resp.addr ||| params.pageOffset (u.head.req 0).addr, resp.label⟩
  else ⟨resp.addr + BitVec.ofNat params.pAddrW 1 <<< u.tlbMeta.size.toNat ||| params.pageOffset (u.head.req 1).addr, resp.label⟩

def isBlockMisaligned (addr1 addr2 : params.PAddr) : Bool :=
  decide (params.blockAddrBits addr1 ≠ params.blockAddrBits addr2)

def cacheReqPacked (resp : PipeTLBResp params Λ) : MemPending params Λ where
  inst := u.tlbMeta
  blockMisaligned :=
    u.tlbMeta.isPairPageMisaligned || isBlockMisaligned (u.paddr resp 0).bits (u.paddr resp 1).bits
  firstIsCompleted := false
  paddr := u.paddr resp

def cacheReqEnq : Option (MemPending params Λ) :=
  ((u.tlbRespFire i).filter fun resp => !ditched resp).map u.cacheReqPacked

end TLB

section CacheResponse

def cachePipeResp : Option (MemPending params Λ × params.Block) :=
  CacheInterface.pipeResp u.cacheAdaptor i.cacheResp true

def misalignedEnq : Option (MemPending params Λ) :=
  ((u.cachePipeResp i).filter fun r => r.1.needsSecondAccess).map fun r => r.1.firstCompleted r.2

def doneEnq : Option (CommitInst params.thidW) :=
  ((u.cachePipeResp i).filter fun r => !r.1.needsSecondAccess).map fun r => r.1.done r.2

end CacheResponse

section Flush

def hasPendingWork : Bool :=
  !u.cacheReqQ.isEmpty || !u.cacheReqMisalignedQ.isEmpty || decide (u.cacheAdaptor.pending cacheInstsFlightEntries ≠ 0)

def granted : Bool := CacheFlushingController.granted u.flushState i.mmu u.hasPendingWork

end Flush

section Credits

def cacheReqDeqFire : Bool := FlushQueue.doDeq u.cacheReqQ (u.cacheReqDeqReady i)

def misalignedDeqFire : Bool := FlushQueue.doDeq u.cacheReqMisalignedQ (u.misalignedDeqReady i)

def tlb2cacheTrans : CreditTrans := ⟨u.tlbReqDeqFire i, (u.tlbRespFire i).any ditched, u.cacheReqDeqFire i⟩

def cache2cacheMisalignedTrans : CreditTrans where
  inn := u.cacheReqDeqFire i && u.cacheReqQ.head?.any MemPending.blockMisaligned
  dropped := false
  out := u.misalignedDeqFire i

def cache2doneInstTrans : CreditTrans where
  inn := if u.cacheReqDeqFire i then !u.cacheReqQ.head?.any MemPending.blockMisaligned else u.misalignedDeqFire i
  dropped := false
  out := FlushQueue.doDeq u.doneInst i.respReady

end Credits

def next : MemoryUnit params Λ where
  tlbReqQ := u.tlbReqQ.next true i.req (u.tlbReqDeqReady i)
  tlbMeta := if u.tlbReqDeqFire i then u.head else u.tlbMeta
  tlbPairPaddr1 :=
    match u.tlbRespFire i with
    | some resp => ⟨resp.addr, resp.label⟩
    | none => u.tlbPairPaddr1
  sTLBState := u.sTLBStateNext i
  cacheReqQ := cacheReqQueue.next u.cacheReqQ (u.cacheReqEnq i) (u.cacheReqDeqReady i)
  cacheReqMisalignedQ :=
    cacheReqMisalignedQueue.next u.cacheReqMisalignedQ (u.misalignedEnq i) (u.misalignedDeqReady i)
  cacheAdaptor := CacheInterface.next cacheInstsFlightEntries u.cacheAdaptor i.cacheResp true (u.cacheReqFired i)
  doneInst := doneInstQueue.next u.doneInst (u.doneEnq i) i.respReady
  tlb2cacheCredits := u.tlb2cacheCredits.next (u.tlb2cacheTrans i)
  cache2cacheMisalignedCredits := u.cache2cacheMisalignedCredits.next (u.cache2cacheMisalignedTrans i)
  cache2doneInstCredits := u.cache2doneInstCredits.next (u.cache2doneInstTrans i)
  flushState := CacheFlushingController.next u.flushState i.mmu u.hasPendingWork

structure Output (params : PipelineParams) (Λ : Type u) where
  tlbReq : Option (PipeTLBReq params)
  cacheReq : Option (MemPending params Λ)
  done : Option (CommitInst params.thidW)
  granted : Bool

def machine (params : PipelineParams) (Λ : Type u) : Machine (MemoryUnit params Λ) (Input params Λ) (Output params Λ) where
  next := next
  output u i := ⟨u.tlbReq i, u.cacheReqFired i, if i.respReady then u.doneInst.head? else none, u.granted i⟩

/-- The memories and registers without a reset value. -/
structure Contents (params : PipelineParams) (Λ : Type u) where
  tlbReqRam : BitVec 1 → MInst params.thidW
  tlbMeta : MInst params.thidW
  tlbPairPaddr1 : Labelled Λ params.PAddr

def reset (c : Contents params Λ) : MemoryUnit params Λ :=
  ⟨.reset c.tlbReqRam, c.tlbMeta, c.tlbPairPaddr1, req, [], [], .reset, [], .reset 3, .reset 3, .reset 4, .idle⟩

section Facts

theorem cache2doneInstCredits_ready : u.cache2doneInstCredits.ready = true :=
  CreditQueueController.ready_eq_true _ (by decide)

theorem cache2cacheMisalignedCredits_ready : u.cache2cacheMisalignedCredits.ready = true :=
  CreditQueueController.ready_eq_true _ (by decide)

@[simp] theorem cacheReqCredit_eq : u.cacheReqCredit = true := by
  rw [cacheReqCredit, cache2doneInstCredits_ready, cache2cacheMisalignedCredits_ready, ite_self]

@[simp] theorem misalignedSelected_eq : u.misalignedSelected = !u.cacheReqMisalignedQ.isEmpty := by
  rw [misalignedSelected, cache2doneInstCredits_ready, Bool.and_true]

variable {u} {i}

theorem cacheReqFired_eq : u.cacheReqFired i = if u.portReady i then u.pipeMeta else none := by
  rw [cacheReqFired, portValid, CacheInterface.cacheValid, misalignedSelected_eq, cacheReqCredit_eq, pipeMeta, portReady,
    CacheInterface.reqReady]
  cases u.cacheReqMisalignedQ <;> cases u.cacheReqQ <;> cases i.cacheReqReady <;> simp

theorem mem_of_pipeMeta {m : MemPending params Λ} (h : u.pipeMeta = some m) :
    m ∈ u.cacheReqQ ∨ m ∈ u.cacheReqMisalignedQ := by
  rw [pipeMeta] at h
  split at h
  · exact .inl (List.mem_of_mem_head? h)
  · exact .inr (List.mem_of_mem_head? h)

theorem paddr_label (hPage : u.tlbMeta.isPairPageMisaligned = false) (resp : PipeTLBResp params Λ) (k : Fin 2) :
    (u.paddr resp k).label = resp.label := by
  rw [paddr, if_neg (by simp [hPage])]
  split <;> rfl

/-- Between the two translations of a pair the unit takes no answer, so the second one is never requested. -/
theorem tlbRespFire_intermediate (h : u.sTLBState = intermediateResp) : u.tlbRespFire i = none := by
  rw [tlbRespFire, tlbRespReady, h]
  cases i.tlbResp <;> simp

theorem sTLBStateNext_ne_pairReq (h : u.sTLBState ≠ pairReq) : u.sTLBStateNext i ≠ pairReq := by
  cases hState : u.sTLBState with
  | req =>
    simp only [sTLBStateNext, hState]
    split <;> simp
  | intermediateResp => simp [sTLBStateNext, hState, tlbRespFire_intermediate hState]
  | pairReq => exact absurd hState h

/-- The instruction that leaves the request queue for its only translation is not one over two pages. -/
theorem not_isPairPageMisaligned_of_deqFire (hState : u.sTLBState = req) (hFire : u.tlbReqDeqFire i = true) :
    u.tlbReqFire i = true ∧ u.head.isPairPageMisaligned = false := by
  simp only [tlbReqDeqFire, RamQueue.doDeq, tlbReqDeqReady, hState, Bool.and_eq_true, Bool.not_eq_true',
    Bool.and_eq_false_iff] at hFire
  obtain ⟨hValid, hStop, ⟨hReady, hCredit⟩, hNot⟩ := hFire
  have hReq : u.tlbReqFire i = true := by simp [tlbReqFire, tlbReqValid, hValid, hCredit, hState, hStop, hReady]
  exact ⟨hReq, hNot.resolve_left (by simp [hReq])⟩

theorem deqFire_of_tlbReqFire (hState : u.sTLBState = req) (hReq : u.tlbReqFire i = true)
    (hNot : u.head.isPairPageMisaligned = false) : u.tlbReqDeqFire i = true := by
  simp only [tlbReqFire, tlbReqValid, Bool.and_eq_true, Bool.not_eq_true'] at hReq
  obtain ⟨⟨⟨⟨hValid, hCredit⟩, -⟩, hStop⟩, hReady⟩ := hReq
  simp [tlbReqDeqFire, RamQueue.doDeq, tlbReqDeqReady, hState, hValid, hCredit, hStop, hReady, hNot]

end Facts

end MemoryUnit

end KnockoutKraken.Armflex
