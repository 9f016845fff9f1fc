import KnockoutKraken.Arm.LoadStore

/-!
# The fields that name registers

A register field of 31 stands for zero or for the stack pointer, which of
the two depends on the class and the place of the field. Zero is not
changed by a write.
-/

namespace KnockoutKraken.Arm

structure Field where
  register : BitVec 5
  stack : Bool
deriving DecidableEq

namespace Field

variable (f : Field)

def value (reg : BitVec 5 → BitVec 64) : BitVec 64 :=
  if f.register = 31 then if f.stack then reg 31 else 0 else reg f.register

/-- The register that a write to the field changes. -/
def target : Option (BitVec 5) := if f.register = 31 then if f.stack then some 31 else none else some f.register

end Field

def zr (r : BitVec 5) : Field := ⟨r, false⟩

def sp (r : BitVec 5) : Field := ⟨r, true⟩

section Classes

variable (w : BitVec 32)

def loads : Bool := accessType w != 0

def loadsPair : Bool := w.getLsbD 22

def sources : IType → List Field
  | .LogSR | .CCReg | .CSel | .ASSR | .DP2S => [zr (Rn w), zr (Rm w)]
  | .LogI | .CCImm | .DP1S | .BReg => [zr (Rn w)]
  | .BitF => if opc w = 1 then [zr (Rn w), zr (Rd w)] else [zr (Rn w)]
  | .ASImm => [sp (Rn w)]
  | .ASER => [sp (Rn w), zr (Rm w)]
  | .MovI => if opc w = 3 then [zr (Rd w)] else []
  | .CBImm | .TBImm => [zr (Rt w)]
  | .LSUImm | .LSUReg | .LSRegPo | .LSRegPr => sp (Rn w) :: if loads w then [] else [zr (Rt w)]
  | .LSReg => sp (Rn w) :: zr (Rm w) :: if loads w then [] else [zr (Rt w)]
  | .LSPair | .LSPairPo | .LSPairPr => sp (Rn w) :: if loadsPair w then [] else [zr (Rt w), zr (Rt2 w)]
  | _ => []

/-- The fields that a word writes: a base that is written back comes before what is loaded. -/
def destinations : IType → Fin 3 → Option Field
  | .LogSR | .ASSR | .CSel | .MovI | .BitF | .DP1S | .DP2S | .PCRel => fun k => if k = 0 then some (zr (Rd w)) else none
  | .LogI => fun k => if k = 0 then some ⟨Rd w, opc w != 3⟩ else none
  | .ASImm | .ASER => fun k => if k = 0 then some ⟨Rd w, !S w⟩ else none
  | .LSUImm | .LSUReg | .LSReg => fun k => if k = 1 ∧ loads w then some (zr (Rt w)) else none
  | .LSRegPo | .LSRegPr => fun k =>
    if k = 0 then some (sp (Rn w)) else if k = 1 ∧ loads w then some (zr (Rt w)) else none
  | .LSPair => fun k =>
    if k = 1 ∧ loadsPair w then some (zr (Rt w)) else if k = 2 ∧ loadsPair w then some (zr (Rt2 w)) else none
  | .LSPairPo | .LSPairPr => fun k =>
    if k = 0 then some (sp (Rn w)) else if k = 1 ∧ loadsPair w then some (zr (Rt w))
    else if k = 2 ∧ loadsPair w then some (zr (Rt2 w)) else none
  | _ => fun _ => none

/-- The word is to change the stack pointer. -/
def WritesStack (c : IType) : Prop := ∃ k, ∃ f ∈ destinations w c k, f.register = 31 ∧ f.stack = true

end Classes

end KnockoutKraken.Arm
