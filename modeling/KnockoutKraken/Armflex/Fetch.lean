import KnockoutKraken.Armflex.MemoryInterface
import KnockoutKraken.Library.Machine
import KnockoutKraken.Util.BaseModules

/-!
# The fetch unit

The threads that are enabled are chosen in turn. The program counter of
the chosen one is translated, the translation waits for the cache, and
the word of the block is put into the instruction queue. A thread is
enabled again by a start, by the commit of its instruction or by the end
of a miss of its translation.
-/

namespace KnockoutKraken.Armflex

open Library Util

universe u

structure FetchUnitPC (thidW : Nat) where
  pc : BitVec thidW → Word
  en : BitVec (2 ^ thidW)
  rra : RoundRobinArbiter thidW

namespace FetchUnitPC

variable {thidW : Nat}

/-- What enables a thread; a start and a commit also set its program counter. -/
structure Ctrl (thidW : Nat) where
  start : Option (BitVec thidW × Word)
  commit : Option (BitVec thidW × Word)
  memWake : Fin 2 → Option (BitVec thidW)

def reset (thidW : Nat) : FetchUnitPC thidW := ⟨fun _ => 0, 0, .reset thidW⟩

variable (u : FetchUnitPC thidW) (ctrl : Ctrl thidW) (reqReady : Bool)

def reqValid : Bool := RoundRobinArbiter.valid u.en

def reqTag : BitVec thidW := u.rra.thread u.en

def reqBits : Word := u.pc u.reqTag

def fired : Option (BitVec thidW) := if u.reqValid && reqReady then some u.reqTag else none

def enabled : BitVec (2 ^ thidW) :=
  bitOf _ (ctrl.start.map Prod.fst) ||| bitOf _ (ctrl.commit.map Prod.fst) |||
    bitOf _ (ctrl.memWake 0) ||| bitOf _ (ctrl.memWake 1)

def pcNext (tag : BitVec thidW) : Word :=
  match ctrl.commit.filter fun c => decide (c.1 = tag), ctrl.start.filter fun c => decide (c.1 = tag) with
  | some c, _ => c.2
  | none, some c => c.2
  | none, none => u.pc tag

def next : FetchUnitPC thidW where
  pc := u.pcNext ctrl
  en := u.en &&& ~~~bitOf _ (u.fired reqReady) ||| enabled ctrl
  rra := u.rra.next u.en reqReady

end FetchUnitPC

structure FetchMeta (params : PipelineParams) where
  pc : Word
  id : params.Thid
deriving DecidableEq

/-- A translated instruction address that waits for the cache. -/
structure FetchPending (params : PipelineParams) (Λ : Type u) where
  paddr : params.PAddr
  inst : Labelled Λ (FetchMeta params)
deriving DecidableEq

structure FetchedInst (params : PipelineParams) where
  tag : params.Thid
  data : BitVec 32
deriving DecidableEq

structure FetchUnit (params : PipelineParams) (Λ : Type u) where
  pcUnit : FetchUnitPC params.thidW
  metaDataTLB : FetchMeta params
  cacheReqQ : List (FetchPending params Λ)
  cacheAdaptor : DoubleLatencyQueue (Labelled Λ (FetchMeta params))
  instQueue : List (Labelled Λ (FetchedInst params))
  pc2cacheCredits : CreditQueueController 3
  cache2instsCredits : CreditQueueController 8
  flushState : FlushState

namespace FetchUnit

variable {params : PipelineParams} {Λ : Type u}

def cacheReqQueue : FlushQueue := { entries := 3, pipe := true }

def instQueueEntries : Nat := 8

def instructionQueue : FlushQueue := { entries := instQueueEntries, pipe := true }

structure Input (params : PipelineParams) (Λ : Type u) where
  ctrl : FetchUnitPC.Ctrl params.thidW
  tlbReqReady : Bool
  tlbResp : Option (PipeTLBResp params Λ)
  cacheReqReady : Bool
  cacheResp : Option (CacheResponse params)
  instReady : Bool
  mmu : PipeMMUPort

variable (u : FetchUnit params Λ) (i : Input params Λ)

def stopTransactions : Bool := CacheFlushingController.stopTransactions u.flushState

section TLBRequest

def tlbReqValid : Bool := u.pcUnit.reqValid && u.pc2cacheCredits.ready && !u.stopTransactions

def pcReqReady : Bool := i.tlbReqReady && u.pc2cacheCredits.ready && !u.stopTransactions

def metaDataTLBW : FetchMeta params := ⟨u.pcUnit.reqBits, u.pcUnit.reqTag⟩

def tlbReqFire : Bool := u.tlbReqValid && i.tlbReqReady

/-- The request lines, valid or not. -/
def tlbReqBits : PipeTLBReq params := ⟨u.pcUnit.reqBits, u.pcUnit.reqTag, instFetch⟩

def tlbReq : Option (PipeTLBReq params) := if u.tlbReqFire i then some u.tlbReqBits else none

/-- A hit is kept. The address joins the page with the offset of the program counter that is shown now. -/
def cacheReqEnq : Option (FetchPending params Λ) :=
  (i.tlbResp.filter PipeTLBResp.hit).map fun resp =>
    ⟨resp.addr ||| params.pageOffset u.metaDataTLBW.pc, ⟨u.metaDataTLB, resp.label⟩⟩

end TLBRequest

section CacheRequest

def portReady : Bool := CacheInterface.reqReady instQueueEntries u.cacheAdaptor i.cacheReqReady

def cacheReqDeqReady : Bool := u.portReady i && u.cache2instsCredits.ready

def portValid : Bool := !u.cacheReqQ.isEmpty && u.cache2instsCredits.ready

def cacheReqFired : Option (FetchPending params Λ) :=
  if CacheInterface.cacheValid instQueueEntries u.cacheAdaptor u.portValid && i.cacheReqReady
  then u.cacheReqQ.head? else none

def cacheReq : Option (CacheRequest params) := (u.cacheReqFired i).map fun q => ⟨q.paddr, 0, 0⟩

def instBits (pc : Word) (data : params.Block) : BitVec 32 :=
  data.extractLsb' (32 * ((params.blockAddrBits pc).toNat / 4)) 32

def respReady : Bool := instructionQueue.enqReady u.instQueue i.instReady

def instEnq : Option (Labelled Λ (FetchedInst params)) :=
  (CacheInterface.pipeResp u.cacheAdaptor i.cacheResp (u.respReady i)).map fun (m, data) =>
    ⟨⟨m.bits.id, instBits m.bits.pc data⟩, m.label⟩

def instQ : Option (FetchedInst params) := u.instQueue.head?.map Labelled.bits

end CacheRequest

section Flush

def hasPendingWork : Bool := !u.cacheReqQ.isEmpty || decide (u.cacheAdaptor.pending instQueueEntries ≠ 0)

def granted : Bool := CacheFlushingController.granted u.flushState i.mmu u.hasPendingWork

end Flush

def pc2cacheTrans : CreditTrans where
  inn := (u.pcUnit.fired (u.pcReqReady i)).isSome
  out := FlushQueue.doDeq u.cacheReqQ (u.cacheReqDeqReady i)
  dropped := i.tlbResp.any fun resp => !resp.hit

def cache2instsTrans : CreditTrans where
  inn := FlushQueue.doDeq u.cacheReqQ (u.cacheReqDeqReady i)
  out := FlushQueue.doDeq u.instQueue i.instReady
  dropped := false

def next : FetchUnit params Λ where
  pcUnit := u.pcUnit.next i.ctrl (u.pcReqReady i)
  metaDataTLB := if u.tlbReqFire i then u.metaDataTLBW else u.metaDataTLB
  cacheReqQ := cacheReqQueue.next u.cacheReqQ (u.cacheReqEnq i) (u.cacheReqDeqReady i)
  cacheAdaptor := CacheInterface.next instQueueEntries u.cacheAdaptor i.cacheResp (u.respReady i)
    ((u.cacheReqFired i).map FetchPending.inst)
  instQueue := instructionQueue.next u.instQueue (u.instEnq i) i.instReady
  pc2cacheCredits := u.pc2cacheCredits.next (u.pc2cacheTrans i)
  cache2instsCredits := u.cache2instsCredits.next (u.cache2instsTrans i)
  flushState := CacheFlushingController.next u.flushState i.mmu u.hasPendingWork

structure Output (params : PipelineParams) (Λ : Type u) where
  tlbReq : Option (PipeTLBReq params)
  cacheReq : Option (FetchPending params Λ)
  inst : Option (Labelled Λ (FetchedInst params))
  granted : Bool

def machine (params : PipelineParams) (Λ : Type u) : Machine (FetchUnit params Λ) (Input params Λ) (Output params Λ) where
  next := next
  output u i := ⟨u.tlbReq i, u.cacheReqFired i, if i.instReady then u.instQueue.head? else none, u.granted i⟩

/-- Reset; the register of the request under translation has no reset value. -/
def reset (metaDataTLB : FetchMeta params) : FetchUnit params Λ :=
  ⟨.reset _, metaDataTLB, [], .reset, [], .reset 3, .reset 8, .idle⟩

section Facts

theorem pc2cacheCredits_ready : u.pc2cacheCredits.ready = true := CreditQueueController.ready_eq_true _ (by decide)

theorem cache2instsCredits_ready : u.cache2instsCredits.ready = true := CreditQueueController.ready_eq_true _ (by decide)

variable {u} {i}

theorem fired_eq : u.pcUnit.fired (u.pcReqReady i) = (u.tlbReq i).map PipeTLBReq.thid := by
  rw [FetchUnitPC.fired, tlbReq, tlbReqFire, tlbReqValid, pcReqReady, pc2cacheCredits_ready]
  cases u.pcUnit.reqValid <;> cases i.tlbReqReady <;> cases u.stopTransactions <;> rfl

theorem cacheReqFired_eq : u.cacheReqFired i = if u.portReady i then u.cacheReqQ.head? else none := by
  rw [cacheReqFired, CacheInterface.cacheValid, portValid, portReady, CacheInterface.reqReady, cache2instsCredits_ready]
  cases u.cacheReqQ <;> cases i.cacheReqReady <;> simp

theorem cacheReqDeqReady_eq : u.cacheReqDeqReady i = u.portReady i := by
  rw [cacheReqDeqReady, cache2instsCredits_ready, Bool.and_true]

end Facts

end FetchUnit

end KnockoutKraken.Armflex
