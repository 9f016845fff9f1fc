import KnockoutKraken.Armflex.Branch
import KnockoutKraken.Armflex.CommitSequence
import KnockoutKraken.Armflex.ExecuteUnit
import KnockoutKraken.Armflex.LDSTUnit
import KnockoutKraken.Armflex.Pipeline

/-!
# The execute stage

The three units on the decoded instruction and its operands. What they
compute is the parameter of the pipeline; an instruction that does not go
to the memory unit commits what is packed here.
-/

namespace KnockoutKraken.Armflex

open Arm

variable {thidW : Nat}

namespace DInst

variable (dinst : DInst) (ops : Operands)

def memException : Bool := LDSTUnit.valid dinst && LDSTUnit.exceptions dinst ops.rVal

def branchValid : Bool := BranchUnit.valid dinst (ops.rVal 1) (ExecuteUnit.condRes dinst ops.pstate.nzcv)

def branchException : Bool := branchValid dinst ops && BranchUnit.unalignedExcp dinst (ops.rVal 1) ops.pstate.pc

def einst : Valid EInst := ExecuteUnit.einst dinst ops.rVal ops.pstate.nzcv

/-- The result of the stage: an address of the branch unit, else what the execute unit shows, valid or not. -/
def result : Option (BitVec 5 × Word) :=
  (BranchUnit.pcrel dinst ops.pstate.pc).or
    (if (dinst.einst ops).bits.rd.valid then some ((dinst.einst ops).bits.rd.bits, (dinst.einst ops).bits.res) else none)

def commitNext (tag : BitVec thidW) : CommitInst thidW where
  tag := tag
  rd k := if k = 0 then (dinst.result ops).map Prod.fst else none
  res k := if k = 0 then ((dinst.result ops).map Prod.snd).getD 0 else 0
  nzcv := if (dinst.einst ops).bits.nzcv.valid && (dinst.einst ops).valid then some (dinst.einst ops).bits.nzcv.bits else none
  brTaken := if dinst.branchValid ops then some (BranchUnit.bpc dinst (ops.rVal 1) ops.pstate.pc) else none
  exceptions := dinst.memException ops || dinst.branchException ops
  undef := !dinst.inst32.valid
  is32bit := dinst.is32bit

def ldstInstruction : Bool := LDSTUnit.valid dinst && !LDSTUnit.exceptions dinst ops.rVal

end DInst

def executeStage (thidW : Nat) : ExecuteStage DInst thidW where
  decode := DInst.decode
  execute dinst ops :=
    ⟨if dinst.ldstInstruction ops then some (LDSTUnit.minst dinst ops.rVal 0) else none, dinst.commitNext ops 0⟩

namespace ThreadState

variable (s : ThreadState) (w : BitVec 32)

def operands (dinst : DInst) : Operands := ⟨dinst.readPorts s.reg, s.pregs⟩

def issue (thidW : Nat) : Executed thidW :=
  (executeStage thidW).execute ((executeStage thidW).decode w) (s.operands ((executeStage thidW).decode w))

theorem issue_minst : (s.issue w thidW).minst =
    if (DInst.decode w).ldstInstruction (s.operands (.decode w)) then
      some (LDSTUnit.minst (DInst.decode w) (s.operands (.decode w)).rVal 0) else none := rfl

theorem issue_commitNext : (s.issue w thidW).commitNext = (DInst.decode w).commitNext (s.operands (.decode w)) 0 := rfl

end ThreadState

section Commit

variable {s : ThreadState} {inst : CommitInst thidW}

theorem ThreadState.commit_single (h1 : inst.rd 1 = none) (h2 : inst.rd 2 = none) : s.commit inst =
    ⟨match inst.rd 0 with | some r => Function.update s.reg r (inst.data 0) | none => s.reg, inst.update s.pregs⟩ := by
  have hWrites : inst.writes = if (inst.rd 0).isSome then [inst.write 0] else [] := by
    rw [CommitInst.writes]
    cases h0 : (inst.rd 0).isSome <;> simp [CommitInst.write, h0, h1, h2]
  rw [commit, hWrites]
  cases h0 : inst.rd 0 with
  | none => rfl
  | some r => simp [write, CommitInst.write, h0]

theorem ThreadState.commit_commitNext (s : ThreadState) (dinst : DInst) (ops : Operands) (tag : BitVec thidW) :
    s.commit (dinst.commitNext ops tag) =
      ⟨match dinst.result ops with
        | some (r, value) => Function.update s.reg r (if dinst.is32bit then (value.setWidth 32).setWidth 64 else value)
        | none => s.reg, (dinst.commitNext ops tag).update s.pregs⟩ := by
  rw [commit_single rfl rfl]
  cases hResult : dinst.result ops with
  | none => simp [DInst.commitNext, hResult]
  | some written => simp [DInst.commitNext, CommitInst.data, hResult]

end Commit

end KnockoutKraken.Armflex
