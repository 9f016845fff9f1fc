import KnockoutKraken.Armflex.Decode
import KnockoutKraken.Armflex.PState

/-!
# The branch unit

Branch targets and addresses relative to the program counter go through
one adder. What is added depends on the type of the instruction; a branch
to a register does not use the adder.
-/

namespace KnockoutKraken.Armflex

open Arm

namespace BranchUnit

variable (dinst : DInst) (rVal2 : Word) (cond : Bool) (pc : Word)

def immS2 : BitVec 28 := dinst.imm ++ 0#2

def immSExt : Word :=
  match dinst.itype with
  | .BImm => (immS2 dinst).signExtend 64
  | .BCImm | .CBImm => ((immS2 dinst).setWidth 21).signExtend 64
  | .TBImm => ((immS2 dinst).setWidth 16).signExtend 64
  | .PCRel =>
    if dinst.op = OP_ADRP then (dinst.imm.setWidth 21 ++ 0#12).signExtend 64 else (dinst.imm.setWidth 21).signExtend 64
  | _ => (dinst.imm.setWidth 21).signExtend 64

/-- The sum is taken one bit wider and cut to the width of its ports. -/
def pcadd : Word :=
  (if dinst.itype = .PCRel ∧ dinst.op = OP_ADRP then pc.extractLsb' 12 52 ++ 0#12 else pc) + immSExt dinst

def bitPos : BitVec 6 := BitVec.ofBool (!dinst.is32bit) ++ dinst.imm.extractLsb' 14 5

def bpc : Word := if dinst.itype = .BReg then rVal2 else pcadd dinst pc

def unalignedExcp : Bool := (bpc dinst rVal2 pc).setWidth 2 != 0

def valid : Bool :=
  match dinst.itype with
  | .BImm | .BReg => true
  | .BCImm => cond
  | .TBImm => decide ((BitVec.ofBool (rVal2.getLsbD (bitPos dinst).toNat)).setWidth 4 = dinst.op)
  | .CBImm =>
    match dinst.op with
    | OP_CBZ => if dinst.is32bit then rVal2.setWidth 32 == 0 else rVal2 == 0
    | OP_CBNZ => if dinst.is32bit then rVal2.setWidth 32 != 0 else rVal2 != 0
    | _ => false
  | _ => false

/-- The register written with an address, and the address. -/
def pcrel : Option (BitVec 5 × Word) :=
  if dinst.itype = .BImm ∧ dinst.op = OP_BL ∨ dinst.itype = .BReg ∧ dinst.op = OP_BLR then some (30, pc + 4)
  else if dinst.itype = .PCRel then some (dinst.rd.bits, pcadd dinst pc)
  else none

end BranchUnit

end KnockoutKraken.Armflex
