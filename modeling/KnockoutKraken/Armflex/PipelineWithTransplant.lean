import KnockoutKraken.Armflex.Commit
import KnockoutKraken.Armflex.Transplant
import KnockoutKraken.Library.Machine

/-!
# The architectural state between commit and transplant

The commit unit and the transplant unit share the write ports of the
architectural state. While a thread is copied in, the transplant unit
owns them and the commit unit waits.
-/

namespace KnockoutKraken.Armflex

open Library Util

structure PipelineState (thidW : Nat) where
  commitU : CommitUnit thidW
  archstate : ArchState thidW
  transplantU : TransplantUnit thidW

namespace PipelineState

variable {thidW : Nat}

/-- An executed instruction, the requests of the host, and the host's port. -/
structure Input (thidW : Nat) where
  enq : Option (CommitInst thidW)
  pending : BitVec (2 ^ thidW)
  stopCPU : BitVec (2 ^ thidW)
  hostPort : HostPort thidW

variable (s : PipelineState thidW) (i : Input thidW)

def updatingPState : Bool := s.transplantU.control.updatingPState

def thread : BitVec thidW := s.transplantU.control.thread

def commitReady : Bool := !s.updatingPState

/-- The thread reported done: the head of the commit queue when it is to be stopped or transplanted. -/
def done : Option (BitVec thidW) :=
  if i.stopCPU.getLsbD s.commitU.head.tag.toNat then some s.commitU.head.tag else s.commitU.transplant s.commitReady

def rfileWr : RFileWrite thidW := if s.updatingPState then s.transplantU.rfileWr else s.commitU.wr s.commitReady

def commitTag : BitVec thidW := if s.updatingPState then s.thread else s.commitU.head.tag

def pstateWrite : PStateWrite thidW :=
  if s.updatingPState then ⟨true, s.commitTag, s.transplantU.pregs (s.archstate.pregs s.commitTag)⟩
  else ⟨s.commitU.finalCommit s.commitReady, s.commitTag,
    s.commitU.regsNext s.commitReady (s.archstate.pregs s.commitTag)⟩

def transplantInput : TransplantUnit.Input thidW where
  requests := ⟨i.pending, s.done i, none, none⟩
  pregs := if s.updatingPState then s.archstate.pregs s.commitTag else s.archstate.pregs s.thread
  rfileWr := s.commitU.wr s.commitReady
  hostPort := i.hostPort

def next : PipelineState thidW where
  commitU := s.commitU.next s.commitReady i.enq
  archstate := s.archstate.next s.rfileWr s.pstateWrite
  transplantU := s.transplantU.next (s.transplantInput i)

structure Output (thidW : Nat) where
  accepted : Option (CommitInst thidW)
  retired : Option (CommitInst thidW)
  applied : Option (RFileWrite thidW)
  start : Option (BitVec thidW)
  hostDone : Option (BitVec thidW)

def accepted : Option (CommitInst thidW) := if s.commitU.enqReady s.commitReady then i.enq else none

def retired : Option (CommitInst thidW) := if s.commitU.finalCommit s.commitReady then some s.commitU.head else none

def applied : Option (RFileWrite thidW) :=
  if !s.updatingPState && (s.commitU.wr s.commitReady).en then some (s.commitU.wr s.commitReady) else none

def output : Output thidW :=
  ⟨s.accepted i, s.retired, s.applied, s.transplantU.control.start, s.transplantU.control.hostDone⟩

def machine (thidW : Nat) : Machine (PipelineState thidW) (Input thidW) (Output thidW) := ⟨next, output⟩

/-- The memories without contents of their own at power-up; block memories are zero, but for what the host put there. -/
structure Contents (thidW : Nat) where
  queue : BitVec thidW → CommitInst thidW
  pcMem : BitVec thidW → Word
  nzcvMem : BitVec thidW → BitVec 4
  hostBuffer : BRAMTDP (BitVec (hostAddrW thidW)) (Fin 8) (BitVec 8)

def reset (c : Contents thidW) : PipelineState thidW where
  commitU := ⟨.reset c.queue, .sWB⟩
  archstate := ⟨fun _ => 0, c.pcMem, c.nzcvMem⟩
  transplantU := ⟨.reset thidW, ⟨fun _ _ => 0, fun _ => 0, fun _ => 0⟩, c.hostBuffer, 0, .rDone, false, 0, 0⟩

end PipelineState

end KnockoutKraken.Armflex
