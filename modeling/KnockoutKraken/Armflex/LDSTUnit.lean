import KnockoutKraken.Armflex.Execute
import KnockoutKraken.Armflex.LoadStore

/-!
# The load/store unit

All memory instructions share one base register, one offset and one write
back. The registers loaded or stored come from the second and third read
port, and a pair swaps them.
-/

namespace KnockoutKraken.Armflex

open Arm

namespace LDSTUnit

variable {thidW : Nat} (dinst : DInst) (rVal : Fin 3 → Word)

/-- Register 31 is the stack pointer as a base. -/
def baseAddress : Word := rVal 0

def rVal2 : Word := if dinst.rs2 = 31 then 0 else rVal 1

def rVal3 : Word := if dinst.imm.setWidth 5 = 31 then 0 else rVal 2

def size : BitVec 2 := dinst.op.setWidth 2

def isLoad : Bool := dinst.op.getLsbD 2

def isSigned : Bool := dinst.op.getLsbD 3

def isPair : Bool :=
  match dinst.itype with
  | .LSPairPr | .LSPair | .LSPairPo => true
  | _ => false

def offstSignExt7 : Word := (dinst.imm.setWidth 7).signExtend 64

def offstSignExt9 : Word := (dinst.imm.setWidth 9).signExtend 64

def extendReg : Word :=
  ExtendReg.res (rVal2 dinst rVal) (dinst.shiftVal.bits.setWidth 3) (if dinst.shiftVal.valid then size dinst else 0)

def offst : Word :=
  match dinst.itype with
  | .LSUImm => (dinst.imm.setWidth 12).setWidth 64 <<< (size dinst).toNat
  | .LSUReg | .LSRegPo | .LSRegPr => offstSignExt9 dinst
  | .LSPairPo | .LSPair | .LSPairPr => offstSignExt7 dinst <<< (size dinst).toNat
  | .LSReg => extendReg dinst rVal
  | _ => dinst.imm.setWidth 64

def wback : Bool :=
  match dinst.itype with
  | .LSPairPo | .LSPairPr | .LSRegPo | .LSRegPr => true
  | _ => false

def postindex : Bool :=
  match dinst.itype with
  | .LSPairPo | .LSRegPo => true
  | _ => false

def wbackAddr : Word := baseAddress rVal + offst dinst rVal

def ldstAddress : Word := if postindex dinst then baseAddress rVal else wbackAddr dinst rVal

/-- A pair accesses its first register with the other data and the other name. -/
def minst (tag : BitVec thidW) : MInst thidW where
  size := size dinst
  isPair := isPair dinst
  isLoad := isLoad dinst
  is32bit := size dinst != 3 && !(dinst.itype == .LSUImm && dinst.op == OP_LDRSW)
  isSigned := isSigned dinst
  req k :=
    if k = 0 then
      ⟨ldstAddress dinst rVal, if isPair dinst then rVal3 dinst rVal else rVal2 dinst rVal,
        if isPair dinst then dinst.rd.bits else dinst.rs2⟩
    else ⟨ldstAddress dinst rVal + BitVec.ofNat 64 (2 ^ (size dinst).toNat), rVal2 dinst rVal, dinst.rs2⟩
  rdRes := wbackAddr dinst rVal
  rd := if wback dinst then some dinst.rs1 else none
  tag := tag

def isAlignedMem (size : BitVec 2) (addr : Word) : Bool :=
  match size with
  | 0b00#2 => true
  | 0b01#2 => addr.setWidth 1 == 0
  | 0b10#2 => addr.setWidth 2 == 0
  | _ => addr.setWidth 3 == 0

def unalignedExcpSP : Bool := dinst.rs1 == 31 && (wbackAddr dinst rVal).setWidth 2 != 0

def unalignedExcp : Bool :=
  !isAlignedMem (size dinst) ((minst dinst rVal 0#0).req 0).addr ||
    isPair dinst && !isAlignedMem (size dinst) ((minst dinst rVal 0#0).req 1).addr

def exceptions : Bool := unalignedExcpSP dinst rVal || unalignedExcp dinst rVal

def valid : Bool :=
  match dinst.itype with
  | .LSPairPr | .LSPair | .LSPairPo | .LSUReg | .LSRegPr | .LSReg | .LSRegPo | .LSUImm => true
  | _ => false

end LDSTUnit

end KnockoutKraken.Armflex
