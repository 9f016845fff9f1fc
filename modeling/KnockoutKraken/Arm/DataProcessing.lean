import KnockoutKraken.Arm.Encoding
import KnockoutKraken.Arm.SharedFunctions

/-!
# The data-processing instructions

What an instruction word is to do to the registers and the flags. Register
31 of the register file is the stack pointer; an operand or destination
that is not allowed to be the stack pointer is zero there, or discarded.
-/

namespace KnockoutKraken.Arm

/-- The register written with its new value, and the new flags. -/
structure Outcome (n : Nat) where
  written : Option (BitVec 5 × BitVec n)
  nzcv : Option (BitVec 4)
deriving DecidableEq

section Registers

variable (n : Nat) (reg : BitVec 5 → BitVec 64)

/-- `X[r]` of `n` bits. -/
def X (r : BitVec 5) : BitVec n := if r = 31 then 0 else (reg r).setWidth n

/-- `SP[]` where the field may name it, else `X[r]`. -/
def XorSP (r : BitVec 5) : BitVec n := (reg r).setWidth n

variable {n}

def writeX (r : BitVec 5) (value : BitVec n) : Option (BitVec 5 × BitVec n) := if r = 31 then none else some (r, value)

end Registers

def datasize (w : BitVec 32) : Nat := if sf w then 64 else 32

section Operations

variable (n : Nat) (reg : BitVec 5 → BitVec 64) (nzcv : BitVec 4) (w : BitVec 32)

section AddSubtract

variable {n}

/-- The sum or difference of the operands. -/
def addSubtract (operand1 operand2 : BitVec n) : BitVec n × BitVec 4 :=
  addWithCarry operand1 (if op w then ~~~operand2 else operand2) (op w)

/-- With the flags, the destination 31 is zero; without, it is what the class says. -/
def addSubtractOutcome (mayWriteSP : Bool) (operand1 operand2 : BitVec n) : Outcome n where
  written :=
    if mayWriteSP && !S w then some (Rd w, (addSubtract w operand1 operand2).1)
    else writeX (Rd w) (addSubtract w operand1 operand2).1
  nzcv := if S w then some (addSubtract w operand1 operand2).2 else none

variable (n)

def imm6 : BitVec 6 := w.extractLsb' 10 6

def shiftedRegister : BitVec n := shiftReg (X n reg (Rm w)) (w.extractLsb' 22 2) (imm6 w).toNat

def addSubtractShifted : Outcome n := addSubtractOutcome w false (X n reg (Rn w)) (shiftedRegister n reg w)

def addSubtractExtended : Outcome n :=
  addSubtractOutcome w true (XorSP n reg (Rn w))
    (extendReg (X n reg (Rm w)) (w.extractLsb' 13 3) (w.extractLsb' 10 3).toNat)

def addSubtractImmediate : Outcome n :=
  addSubtractOutcome w true (XorSP n reg (Rn w))
    ((w.extractLsb' 10 12).setWidth n <<< (if w.getLsbD 22 then 12 else 0))

end AddSubtract

section Conditional

def cond : BitVec 4 := w.extractLsb' 12 4

/-- The flags of the comparison, or the given ones. -/
def conditionalCompare {n : Nat} (operand1 operand2 : BitVec n) : Outcome n :=
  ⟨none, some (if conditionHolds (cond w) nzcv then (addSubtract w operand1 operand2).2 else w.extractLsb' 0 4)⟩

def conditionalCompareRegister : Outcome n := conditionalCompare nzcv w (X n reg (Rn w)) (X n reg (Rm w))

def conditionalCompareImmediate : Outcome n := conditionalCompare nzcv w (X n reg (Rn w)) ((w.extractLsb' 16 5).setWidth n)

/-- The second register inverted, incremented or both. -/
def conditionalSelect : Outcome n :=
  let inverted := if op w then ~~~X n reg (Rm w) else X n reg (Rm w)
  let incremented := if w.getLsbD 10 then inverted + 1 else inverted
  ⟨writeX (Rd w) (if conditionHolds (cond w) nzcv then X n reg (Rn w) else incremented), none⟩

end Conditional

section Logical

variable {n}

def logicalOp (operand1 operand2 : BitVec n) : BitVec n :=
  match opc w with
  | 0b01#2 => operand1 ||| operand2
  | 0b10#2 => operand1 ^^^ operand2
  | _ => operand1 &&& operand2

/-- The flags of a logical operation; the last of the four sets them. -/
def logicalFlags (result : BitVec n) : Option (BitVec 4) :=
  if opc w = 3 then some (catNZCV result.msb (result == 0) false false) else none

variable (n)

def logicalShifted : BitVec n :=
  logicalOp w (X n reg (Rn w)) (if invert w then ~~~shiftedRegister n reg w else shiftedRegister n reg w)

def logicalShiftedOutcome : Outcome n := ⟨writeX (Rd w) (logicalShifted n reg w), logicalFlags w (logicalShifted n reg w)⟩

def immr : BitVec 6 := w.extractLsb' 16 6

def imms : BitVec 6 := w.extractLsb' 10 6

/-- The mask of a logical immediate, unless it is reserved. -/
def immediateMask : Option (BitVec n) := (decodeBitMasks n (N w) (imms w) (immr w) true).map Prod.fst

def logicalImmediate (mask : BitVec n) : BitVec n := logicalOp w (X n reg (Rn w)) mask

end Logical

section Moves

/-- `SBFM`, `BFM` and `UBFM`: what the masks select of the rotated source, over the sign, the destination or zero. -/
def bitfield (masks : BitVec n × BitVec n) : Outcome n :=
  let (wmask, tmask) := masks
  let src := X n reg (Rn w)
  let inzero := opc w != 1
  let extend := opc w == 0
  let dst := if inzero then 0 else X n reg (Rd w)
  let bot := (dst &&& ~~~wmask) ||| (src.rotateRight (immr w).toNat &&& wmask)
  let top := if extend then (if src.getLsbD (imms w).toNat then BitVec.allOnes n else 0) else dst
  ⟨writeX (Rd w) ((top &&& ~~~tmask) ||| (bot &&& tmask)), none⟩

/-- `MOVN`, `MOVZ` and `MOVK`: the immediate in its place of the destination or zero, inverted for the first. -/
def moveWide : Outcome n :=
  let imm16 := w.extractLsb' 5 16
  let pos := 16 * (w.extractLsb' 21 2).toNat
  let before : BitVec n := if opc w = 3 then X n reg (Rd w) else 0
  let result := (before &&& ~~~((BitVec.allOnes 16).setWidth n <<< pos)) ||| (imm16.setWidth n <<< pos)
  ⟨writeX (Rd w) (if opc w = 0 then ~~~result else result), none⟩

end Moves

section OneSource

def opcode1 : BitVec 6 := w.extractLsb' 10 6

/-- `RBIT`, the reversals in containers of 2, 4 and 8 bytes, `CLZ` and `CLS`. -/
def dataProcessing1Source {n : Nat} (operand : BitVec n) : BitVec n :=
  match (opcode1 w).toNat with
  | 0 => reverseBits operand
  | 1 => reverseBytes operand 2
  | 2 => reverseBytes operand 4
  | 3 => reverseBytes operand 8
  | 4 => BitVec.ofNat n (countLeadingZeroBits operand)
  | _ => BitVec.ofNat n (countLeadingSignBits operand)

end OneSource

end Operations

section Classes

variable (n : Nat) (reg : BitVec 5 → BitVec 64) (nzcv : BitVec 4) (w : BitVec 32)

def addSubtractFamily : IType → Option (Outcome n)
  | .ASSR => some (addSubtractShifted n reg w)
  | .ASER => some (addSubtractExtended n reg w)
  | .ASImm => some (addSubtractImmediate n reg w)
  | .CCReg => some (conditionalCompareRegister n reg nzcv w)
  | .CCImm => some (conditionalCompareImmediate n reg nzcv w)
  | .CSel => some (conditionalSelect n reg nzcv w)
  | _ => none

/-- What a bitfield or move word is to do; the masks of a bitfield are there when it is not reserved. -/
def bitfieldMove : IType → Option (Outcome n)
  | .BitF => (decodeBitMasks n (N w) (imms w) (immr w) false).map (bitfield n reg w)
  | .MovI => some (moveWide n reg w)
  | _ => none

/-- The words of a diagram that are reserved or undefined although their operation is allocated. -/
def reserved : IType → Bool
  | .ASSR => w.extractLsb' 22 2 == ROR || !sf w && (imm6 w).getLsbD 5
  | .LogSR => !sf w && (imm6 w).getLsbD 5
  | .ASER => decide (4 < (w.extractLsb' 10 3).toNat)
  | .BitF => !sf w && ((immr w).getLsbD 5 || (imms w).getLsbD 5)
  | .LogI => (immediateMask 64 w).isNone
  | _ => false

/-- The registers that a word names. A comparison names no destination. -/
def registers : IType → List (BitVec 5)
  | .ASSR | .ASER => [Rn w, Rm w] ++ if S w && Rd w == 31 then [] else [Rd w]
  | .ASImm => [Rn w] ++ if S w && Rd w == 31 then [] else [Rd w]
  | .LogSR => [Rn w, Rm w] ++ if opc w == 3 && Rd w == 31 then [] else [Rd w]
  | .LogI => [Rn w] ++ if opc w == 3 && Rd w == 31 then [] else [Rd w]
  | .CCReg => [Rn w, Rm w]
  | .CCImm => [Rn w]
  | .CSel => [Rd w, Rn w, Rm w]
  | .BitF | .DP1S => [Rd w, Rn w]
  | .MovI => [Rd w]
  | _ => []

end Classes

end KnockoutKraken.Arm
