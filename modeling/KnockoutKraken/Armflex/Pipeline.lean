import KnockoutKraken.Armflex.Fetch
import KnockoutKraken.Armflex.LoadStore

/-!
# The pipeline

Fetch, decode, issue, execute or memory, commit. An instruction is handed
from stage to stage with the tag of its thread. What the decoder and the
execution units compute from an instruction word and its operands is a
parameter; whether an instruction goes to the memory unit is part of it.
-/

namespace KnockoutKraken.Armflex

open Library Util

universe u

structure Operands where
  rVal : Fin 3 → Word
  pstate : PStateRegs

/-- What is executed: a memory instruction without an exception, or else what commits next. -/
structure Executed (thidW : Nat) where
  minst : Option (MInst thidW)
  commitNext : CommitInst thidW

structure ExecuteStage (δ : Type) (thidW : Nat) where
  decode : BitVec 32 → δ
  execute : δ → Operands → Executed thidW

structure Pipeline (params : PipelineParams) (δ : Type) (Λ : Type u) where
  fetch : FetchUnit params Λ
  decReg : FlushReg params.Thid δ
  issuer : FlushReg params.Thid δ
  stateReadArrives : Bool
  operandsReg : Operands
  memUnit : MemoryUnit params Λ
  commitU : CommitUnit params.thidW

namespace Pipeline

variable {params : PipelineParams} {δ : Type} {Λ : Type u}

structure MemPort (params : PipelineParams) (Λ : Type u) where
  tlbReqReady : Bool
  tlbResp : Option (PipeTLBResp params Λ)
  cacheReqReady : Bool
  cacheResp : Option (CacheResponse params)
  mmu : PipeMMUPort

structure Input (params : PipelineParams) (Λ : Type u) where
  inst : MemPort params Λ
  data : MemPort params Λ
  wake : Fin 2 → Option params.Thid
  start : Option (params.Thid × Word)
  stopCPU : BitVec (2 ^ params.thidW)
  /-- The architectural state: whether it takes writes, the state registers of the head of the
  commit queue, and what was read for the instruction that was issued last. -/
  commitReady : Bool
  commitRegs : PStateRegs
  read : Operands

variable (x : ExecuteStage δ params.thidW) (p : Pipeline params δ Λ) (i : Input params Λ)

section Commit

def stopped : Bool := i.stopCPU.getLsbD p.commitU.head.tag.toNat

/-- The thread that is fetched again after its instruction committed. -/
def fetchCommit : Option (params.Thid × Word) :=
  if p.commitU.finalCommit i.commitReady && !p.commitU.head.transplant && !p.stopped i
  then some (p.commitU.head.tag, (p.commitU.regsNext i.commitReady i.commitRegs).pc) else none

/-- The thread reported done: a transplant, or a stop of the thread whose tag is at the head. -/
def done : Option params.Thid := if p.stopped i then some p.commitU.head.tag else p.commitU.transplant i.commitReady

def commitEnqReady : Bool := p.commitU.enqReady i.commitReady

end Commit

section Execute

def operands : Operands := if p.stateReadArrives then i.read else p.operandsReg

def memReq : Option (MInst params.thidW) :=
  p.issuer.item.bind fun (tag, d) => (x.execute d (p.operands i)).minst.map fun inst => { inst with tag := tag }

/-- What the execution units hand to the commit queue when the instruction is not for the memory unit. -/
def aluEnq : Option (CommitInst params.thidW) :=
  p.issuer.item.bind fun (tag, d) =>
    if (x.execute d (p.operands i)).minst.isNone then some { (x.execute d (p.operands i)).commitNext with tag := tag } else none

/-- An answer of the memory unit goes before the instruction that is issued. -/
def commitEnq : Option (CommitInst params.thidW) := p.memUnit.doneInst.head?.or (p.aluEnq x i)

def memInput : MemoryUnit.Input params Λ where
  req := p.memReq x i
  tlbReqReady := i.data.tlbReqReady
  tlbResp := i.data.tlbResp
  cacheReqReady := i.data.cacheReqReady
  cacheResp := i.data.cacheResp
  respReady := p.commitEnqReady i
  mmu := i.data.mmu

def memReqReady : Bool := p.memUnit.tlbReqQ.enqReady true (p.memUnit.tlbReqDeqReady (p.memInput x i))

def issuerDeqReady : Bool :=
  if (p.memReq x i).isSome then p.memReqReady x i else p.memUnit.doneInst.isEmpty && p.commitEnqReady i

end Execute

section Issue

def decDeqReady : Bool := p.issuer.enqReady none (p.issuerDeqReady x i)

def instReady : Bool := p.decReg.enqReady none (p.decDeqReady x i)

def fetchInput : FetchUnit.Input params Λ where
  ctrl := ⟨i.start, p.fetchCommit i, i.wake⟩
  tlbReqReady := i.inst.tlbReqReady
  tlbResp := i.inst.tlbResp
  cacheReqReady := i.inst.cacheReqReady
  cacheResp := i.inst.cacheResp
  instReady := p.instReady x i
  mmu := i.inst.mmu

def decoded : Option (params.Thid × δ) := p.fetch.instQ.map fun inst => (inst.tag, x.decode inst.data)

end Issue

def next : Pipeline params δ Λ where
  fetch := p.fetch.next (p.fetchInput x i)
  decReg := p.decReg.next none (p.decDeqReady x i) (p.decoded x)
  issuer := p.issuer.next none (p.issuerDeqReady x i) p.decReg.item
  stateReadArrives := p.decReg.item.isSome && p.decDeqReady x i
  operandsReg := p.operands i
  memUnit := p.memUnit.next (p.memInput x i)
  commitU := p.commitU.next i.commitReady (p.commitEnq x i)

structure Contents (params : PipelineParams) (Λ : Type u) where
  metaDataTLB : FetchMeta params
  memUnit : MemoryUnit.Contents params Λ
  commitQueue : BitVec params.thidW → CommitInst params.thidW

def reset (c : Contents params Λ) : Pipeline params δ Λ where
  fetch := .reset c.metaDataTLB
  decReg := ⟨none⟩
  issuer := ⟨none⟩
  stateReadArrives := false
  operandsReg := ⟨fun _ => 0, ⟨0, 0⟩⟩
  memUnit := .reset c.memUnit
  commitU := ⟨.reset c.commitQueue, .sWB⟩

end Pipeline

end KnockoutKraken.Armflex
