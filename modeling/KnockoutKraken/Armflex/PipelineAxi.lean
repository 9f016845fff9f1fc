import KnockoutKraken.Armflex.PipelineWithTransplant
import KnockoutKraken.Armflex.ThreadTokens
import KnockoutKraken.Armflex.TransplantRequests

/-!
# The pipeline with its host

The pipeline, its architectural state, the transplant unit and the three
registers of the host, wired together. The wires the pipeline saw as
inputs are now driven: a start by the end of a copy-in, the stop bits by
a register. Each part steps as it does on its own, on what the others show.
-/

namespace KnockoutKraken.Armflex

open Library Antmicro

structure PipelineAxi (params : PipelineParams) (δ : Type) where
  pipeline : WatchedPipeline params δ
  archstate : ArchState params.thidW
  transplantU : TransplantUnit params.thidW
  trans2host : BitVec axiDataW
  pendingHostTrans : BitVec axiDataW
  host2transStopCPU : BitVec axiDataW

namespace PipelineAxi

open Pipeline TransplantState TransplantDir

variable {params : PipelineParams} {δ : Type}

/-- A bus write of the host and its port to the buffer, the memory hierarchy, and the registers read at issue. -/
structure Input (params : PipelineParams) where
  bus : Option (CSRBusWrite axiDataW)
  hostPort : HostPort params.thidW
  inst : MemPort params Unit
  data : MemPort params Unit
  wake : Fin 2 → Option params.Thid
  read : Operands

variable (x : ExecuteStage δ params.thidW) (s : PipelineAxi params δ) (i : Input params)

section Wires

def state : PipelineState params.thidW := ⟨s.pipeline.pipe.commitU, s.archstate, s.transplantU⟩

def csrs : TransplantCSRs params.thidW :=
  ⟨s.trans2host, s.pendingHostTrans, s.host2transStopCPU, s.transplantU.control⟩

def stopCPU : BitVec (2 ^ params.thidW) := s.host2transStopCPU.setWidth _

def start : Option (params.Thid × Word) :=
  s.transplantU.control.start.map fun t => (t, (s.transplantU.pregs (s.archstate.pregs s.state.commitTag)).pc)

def pipelineInput : Pipeline.Input params Unit where
  inst := i.inst
  data := i.data
  wake := i.wake
  start := s.start
  stopCPU := s.stopCPU
  commitReady := s.state.commitReady
  commitRegs := s.archstate.pregs s.state.commitTag
  read := i.read

def stateInput : PipelineState.Input params.thidW where
  enq := s.pipeline.pipe.commitEnq x (s.pipelineInput i)
  pending := s.pendingHostTrans.setWidth _
  stopCPU := s.stopCPU
  hostPort := i.hostPort

/-- The thread reported done to the transplant unit. -/
def done : Option params.Thid := s.pipeline.pipe.done (s.pipelineInput i)

def csrsInput : TransplantCSRs.Input params.thidW := ⟨i.bus, s.done i⟩

def unitInput : TransplantControl.Input params.thidW := s.csrs.unitInput (s.csrsInput i)

end Wires

def next : PipelineAxi params δ where
  pipeline := s.pipeline.next x (s.pipelineInput i)
  archstate := (s.state.next (s.stateInput x i)).archstate
  transplantU := (s.state.next (s.stateInput x i)).transplantU
  trans2host := SetCSR.next s.trans2host (bitOf _ s.transplantU.control.hostDone) (CSRBusWrite.csr i.bus 0)
  pendingHostTrans := ClearCSR.next s.pendingHostTrans (bitOf _ (s.csrs.output (s.csrsInput i)).clear) (s.csrsInput i).startWrite
  host2transStopCPU := ClearCSR.next s.host2transStopCPU (bitOf _ s.transplantU.control.hostDone) (s.csrsInput i).stopWrite

structure Output (params : PipelineParams) where
  done : Option params.Thid
  start : Option params.Thid
  hostDone : Option params.Thid

def output : Output params := ⟨s.done i, s.transplantU.control.start, s.transplantU.control.hostDone⟩

def machine : Machine (PipelineAxi params δ) (Input params) (Output params) := ⟨next x, output⟩

/-- The memories without contents of their own at power-up. -/
structure Contents (params : PipelineParams) where
  pipeline : Pipeline.Contents params Unit
  pcMem : params.Thid → Word
  nzcvMem : params.Thid → BitVec 4
  hostBuffer : Util.BRAMTDP (BitVec (hostAddrW params.thidW)) (Fin 8) (BitVec 8)

def Contents.state (c : Contents params) : PipelineState.Contents params.thidW :=
  ⟨c.pipeline.commitQueue, c.pcMem, c.nzcvMem, c.hostBuffer⟩

def reset (c : Contents params) : PipelineAxi params δ where
  pipeline := .reset c.pipeline
  archstate := (PipelineState.reset c.state).archstate
  transplantU := (PipelineState.reset c.state).transplantU
  trans2host := 0
  pendingHostTrans := 0
  host2transStopCPU := 0

variable {x} {s} {i} in
theorem csrs_next : (s.next x i).csrs = s.csrs.next (s.csrsInput i) := rfl

end PipelineAxi

end KnockoutKraken.Armflex
