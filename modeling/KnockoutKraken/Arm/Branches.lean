import KnockoutKraken.Arm.DataProcessing

/-!
# The branches and the addresses relative to the program counter

A branch that is taken has a target, which is to be a multiple of four;
what happens with another one is left to the exception it takes.
-/

namespace KnockoutKraken.Arm

/-- The register written with its new value, and the target of a branch that is taken. -/
structure Transfer where
  written : Option (BitVec 5 × BitVec 64)
  target : Option (BitVec 64)
deriving DecidableEq

/-- The next instruction is fetched from an address that is not one of an instruction. -/
def Transfer.Misaligned (t : Transfer) : Prop := ∃ target ∈ t.target, target.setWidth 2 ≠ 0

instance (t : Transfer) : Decidable t.Misaligned := inferInstanceAs (Decidable (∃ target ∈ t.target, _))

section Branches

variable (reg : BitVec 5 → BitVec 64) (nzcv : BitVec 4) (pc : BitVec 64) (w : BitVec 32)

def branchTo {n : Nat} (imm : BitVec n) : BitVec 64 := pc + (imm ++ 0#2).signExtend 64

def imm19 : BitVec 19 := w.extractLsb' 5 19

def branchImmediate : Transfer := ⟨if w.getLsbD 31 then some (30, pc + 4) else none, some (branchTo pc (w.extractLsb' 0 26))⟩

def branchConditional : Transfer :=
  ⟨none, if conditionHolds (w.extractLsb' 0 4) nzcv then some (branchTo pc (imm19 w)) else none⟩

/-- `CBZ` and `CBNZ` on a register of `n` bits. -/
def compareAndBranch (n : Nat) : Transfer :=
  ⟨none, if (X n reg (Rd w) == 0) = !w.getLsbD 24 then some (branchTo pc (imm19 w)) else none⟩

def testAndBranch : Transfer :=
  let bitPos := BitVec.ofBool (sf w) ++ w.extractLsb' 19 5
  ⟨none, if (X 64 reg (Rd w)).getLsbD bitPos.toNat = w.getLsbD 24 then some (branchTo pc (w.extractLsb' 5 14)) else none⟩

def branchRegister : Transfer := ⟨if w.extractLsb' 21 2 = 1 then some (30, pc + 4) else none, some (X 64 reg (Rn w))⟩

def pcRelative : Transfer :=
  let imm := w.extractLsb' 5 19 ++ w.extractLsb' 29 2
  let result := if w.getLsbD 31 then (pc.extractLsb' 12 52 ++ 0#12) + (imm ++ 0#12).signExtend 64 else pc + imm.signExtend 64
  ⟨writeX (Rd w) result, none⟩

def transfer : IType → Option Transfer
  | .BImm => some (branchImmediate pc w)
  | .BCImm => some (branchConditional nzcv pc w)
  | .CBImm => some (compareAndBranch reg pc w (datasize w))
  | .TBImm => some (testAndBranch reg pc w)
  | .BReg => some (branchRegister reg pc w)
  | .PCRel => some (pcRelative pc w)
  | _ => none

def transferRegisters : IType → List (BitVec 5)
  | .CBImm | .TBImm | .PCRel => [Rd w]
  | .BReg => [Rn w]
  | _ => []

end Branches

end KnockoutKraken.Arm
