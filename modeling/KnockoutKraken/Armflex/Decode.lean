import KnockoutKraken.Arm.DecodeTable

/-!
# The decoder

The control signals of a word come from the decode table; which of its
bits are registers, immediates and shifts follows from the type. A line
that a type leaves open is low.
-/

namespace KnockoutKraken.Armflex

open Arm

universe u

/-- Lines that are driven whether or not they mean anything. -/
structure Valid (α : Type u) where
  valid : Bool
  bits : α
deriving DecidableEq

structure DInst where
  rd : Valid (BitVec 5)
  rs1 : BitVec 5
  rs2 : BitVec 5
  imm : BitVec 26
  shiftVal : Valid (BitVec 6)
  shiftType : BitVec 2
  cond : Valid (BitVec 4)
  is32bit : Bool
  itype : IType
  op : Op
  nzcv : Valid (BitVec 4)
  inst32 : Valid (BitVec 32)
deriving DecidableEq

namespace DInst

variable (inst : BitVec 32)

def bits (hi lo : Nat) : BitVec (hi - lo + 1) := inst.extractLsb' lo (hi - lo + 1)

def rdBits : IType → BitVec 5
  | .PCRel | .BitF | .DP1S | .DP2S | .DP3S | .LogSR | .LogI | .MovI | .ASImm | .ASSR | .ASER | .CSel | .LSRegPo | .LSReg
  | .LSRegPr | .LSUReg | .LSPairPo | .LSPair | .LSPairPr | .LSUImm => bits inst 4 0
  | _ => 0

def rs1Bits : IType → BitVec 5
  | .BReg | .BitF | .DP1S | .DP2S | .DP3S | .LogSR | .LogI | .ASSR | .ASER | .ASImm | .CCImm | .CCReg | .CSel | .LSRegPo
  | .LSReg | .LSRegPr | .LSUReg | .LSPairPo | .LSPair | .LSPairPr | .LSUImm => bits inst 9 5
  | _ => 0

def rs2Bits : IType → BitVec 5
  | .LogSR | .ASSR | .ASER | .CSel | .CCReg | .DP2S | .DP3S | .LSReg => bits inst 20 16
  | .TBImm | .BitF | .MovI | .CBImm | .LSUImm => bits inst 4 0
  | .LSPairPo | .LSPair | .LSPairPr => bits inst 14 10
  | _ => 0

def immBits : IType → BitVec 26
  | .BitF | .LogI => (bits inst 22 10).setWidth 26
  | .MovI => (bits inst 22 5).setWidth 26
  | .TBImm => (bits inst 23 5).setWidth 26
  | .CCImm => (bits inst 21 16).setWidth 26
  | .DP3S => (bits inst 14 10).setWidth 26
  | .BImm => bits inst 25 0
  | .PCRel => (bits inst 23 5 ++ bits inst 30 29).setWidth 26
  | .BCImm | .CBImm => (bits inst 23 5).setWidth 26
  | .ASImm | .LSUImm => (bits inst 21 10).setWidth 26
  | .LSRegPo | .LSRegPr => (bits inst 20 12).setWidth 26
  | .LSUReg => (bits inst 21 12).setWidth 26
  | .LSPairPo | .LSPair | .LSPairPr => (bits inst 21 15).setWidth 26
  | _ => 0

def shiftValBits : IType → BitVec 6
  | .LogSR | .ASSR | .ASER => bits inst 15 10
  | .ASImm => if inst.getLsbD 22 then 12 else 0
  | .BitF => bits inst 21 16
  | .LSReg => (bits inst 15 13).setWidth 6
  | _ => 0

def shiftTypeBits : IType → BitVec 2
  | .DP2S => bits inst 11 10
  | .LogSR | .ASSR => bits inst 23 22
  | .ASER | .ASImm => LSL
  | .BitF => ROR
  | _ => 0

def condBits : IType → BitVec 4
  | .CSel | .CCImm | .CCReg => bits inst 15 12
  | .BCImm => bits inst 3 0
  | _ => 0

def nzcvBits : IType → BitVec 4
  | .CCImm | .CCReg => bits inst 3 0
  | _ => 0

def ofSignals (signals : ControlSignals) : DInst where
  rd := ⟨signals.rdEn, rdBits inst signals.itype⟩
  rs1 := rs1Bits inst signals.itype
  rs2 := rs2Bits inst signals.itype
  imm := immBits inst signals.itype
  shiftVal := ⟨if signals.itype = .LSReg then inst.getLsbD 12 else signals.shiftEn, shiftValBits inst signals.itype⟩
  shiftType := shiftTypeBits inst signals.itype
  cond := ⟨signals.condEn, condBits inst signals.itype⟩
  is32bit := signals.is32bit
  itype := signals.itype
  op := signals.op
  nzcv := ⟨signals.nzcvEn, nzcvBits inst signals.itype⟩
  inst32 := ⟨signals.itype != .X, inst⟩

def decode : DInst := ofSignals inst (controlSignals inst)

end DInst

end KnockoutKraken.Armflex
