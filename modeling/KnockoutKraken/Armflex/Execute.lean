import KnockoutKraken.Arm.SharedFunctions
import KnockoutKraken.Armflex.Decode
import KnockoutKraken.Armflex.PState

/-!
# The execute unit

Combinational units side by side, each computing from the operands all
the time; the type of the instruction selects their inputs and the result.
-/

namespace KnockoutKraken.Armflex

open Arm Library

namespace ALU

/-- The index of the vector wraps around at its size. -/
def rotateRight {n : Nat} (norm : BitVec n) (rot : Nat) : BitVec n :=
  ofBits n fun i => if rot < n - i then norm.getLsbD ((n + rot - (n - i)) % n) else norm.getLsbD ((i + rot) % n)

/-- The index of the highest bit set, and zero when there is none. -/
def highestBitSet {n : Nat} (bits : BitVec n) : Nat := ((List.range n).reverse.find? fun i => bits.getLsbD i).getD 0

def countifyLeadingSignBits {n : Nat} (bits : BitVec n) : BitVec (n - 1) := bits.extractLsb' 1 (n - 1) ^^^ bits.extractLsb' 0 (n - 1)

def countLeadingZeroBits {n : Nat} (bits : BitVec n) (size : Nat) : Nat := size - 1 - highestBitSet bits

def getByte {n : Nat} (bits : BitVec n) (idx : Nat) : BitVec 8 := bits.extractLsb' (idx * 8) 8

end ALU

namespace LogicALU

variable (a b : Word) (opcode : Op)

/-- The second operand comes negated where the operation asks for it. -/
def res : Word :=
  match opcode with
  | OP_AND | OP_BIC => a &&& b
  | OP_ORR | OP_ORN => a ||| b
  | OP_EOR | OP_EON => a ^^^ b
  | _ => 0

def nzcv (is32bit : Bool) : BitVec 4 :=
  catNZCV (if is32bit then (res a b opcode).getLsbD 31 else (res a b opcode).getLsbD 63) (res a b opcode == 0) false false

end LogicALU

namespace ConditionHolds

variable (cond nzcv : BitVec 4)

def result : Bool :=
  let n := nzcv.getLsbD 3
  let z := nzcv.getLsbD 2
  let c := nzcv.getLsbD 1
  let v := nzcv.getLsbD 0
  match cond.extractLsb' 1 3 with
  | 0b000#3 => z
  | 0b001#3 => c
  | 0b010#3 => n
  | 0b011#3 => v
  | 0b100#3 => c && !z
  | 0b101#3 => n == v
  | 0b110#3 => n == v && !z
  | _ => true

def res : Bool := if cond.getLsbD 0 && cond != 0b1111#4 then !result cond nzcv else result cond nzcv

end ConditionHolds

namespace AddWithCarry

section Sums

variable {n : Nat} (a b : BitVec n) (carry : Bool)

def unsignedSum : BitVec (n + 1) := a.setWidth (n + 1) + b.setWidth (n + 1) + (BitVec.ofBool carry).setWidth (n + 1)

def signedSum : BitVec (n + 1) := a.signExtend (n + 1) + b.signExtend (n + 1) + (BitVec.ofBool carry).setWidth (n + 1)

def sum : BitVec n := (unsignedSum a b carry).setWidth n

def flags : BitVec 4 :=
  catNZCV (sum a b carry).msb (sum a b carry == 0) ((sum a b carry).setWidth (n + 1) != unsignedSum a b carry)
    ((sum a b carry).signExtend (n + 1) != signedSum a b carry)

end Sums

variable (is32bit : Bool) (a b : Word) (carry : Bool)

def res : Word := if is32bit then (sum (a.setWidth 32) (b.setWidth 32) carry).setWidth 64 else sum a b carry

def nzcv : BitVec 4 := if is32bit then flags (a.setWidth 32) (b.setWidth 32) carry else flags a b carry

end AddWithCarry

def BitfieldALU.res (op : Op) (imms : BitVec 6) (src dst wmask tmask rorSrcR : Word) : Word :=
  match op with
  | OP_SBFM =>
    let bot := rorSrcR &&& wmask
    let top := if src.getLsbD imms.toNat then BitVec.allOnes 64 else 0
    (top &&& ~~~tmask) ||| (bot &&& tmask)
  | OP_BFM =>
    let bot := (dst &&& ~~~wmask) ||| (rorSrcR &&& wmask)
    (dst &&& ~~~tmask) ||| (bot &&& tmask)
  | OP_UBFM =>
    let bot := rorSrcR &&& wmask
    (bot &&& tmask) ||| (bot &&& tmask)
  | _ => 0

namespace Move

variable (op : Op) (hw : BitVec 2) (imm : BitVec 16) (rd : Word)

def pos : Nat := 16 * hw.toNat

def result : Word :=
  match op with
  | OP_MOVN | OP_MOVZ => 0
  | OP_MOVK => rd
  | _ => 0

/-- The immediate is put over the sixteen bits from its place on. -/
def inserted : Word :=
  ofBits 64 fun i => if pos hw ≤ i ∧ i < pos hw + 16 then imm.getLsbD (i - pos hw) else (result op rd).getLsbD i

def res : Word := if op = OP_MOVN then ~~~inserted op hw imm rd else inserted op hw imm rd

end Move

namespace ShiftALU

variable (word : Word) (amount : BitVec 6) (opcode : BitVec 2)

def res64 : Word :=
  match opcode with
  | LSL => word <<< amount.toNat
  | LSR => word >>> amount.toNat
  | ASR => word.sshiftRight amount.toNat
  | _ => ALU.rotateRight word amount.toNat

/-- The left shift keeps the bits that it moves out of the lower half. -/
def res32 : Word :=
  let word32 := word.setWidth 32
  let amount32 := amount.toNat % 32
  match opcode with
  | LSL => word32.setWidth 64 <<< amount32
  | LSR => (word32 >>> amount32).setWidth 64
  | ASR => (word32.sshiftRight amount32).setWidth 64
  | _ => (ALU.rotateRight word32 amount32).setWidth 64

def res (is32bit : Bool) : Word := if is32bit then res32 word amount opcode else res64 word amount opcode

end ShiftALU

namespace DecodeBitMasks

def onesTable (i : Nat) : Word := BitVec.ofNat 64 (2 ^ i - 1)

variable (immn : Bool) (imms immr : BitVec 6)

def len : Nat := ALU.highestBitSet (BitVec.ofBool immn ++ ~~~imms)

def levels : BitVec 6 := (onesTable (len immn imms)).setWidth 6

def s : BitVec 6 := imms &&& levels immn imms

def r : BitVec 6 := immr &&& levels immn imms

def d : BitVec 6 := (s immn imms - r immn imms immr) &&& levels immn imms

def welem : Word := onesTable ((s immn imms).toNat + 1)

def telem : Word := onesTable ((d immn imms immr).toNat + 1)

def wmask (is32bit : Bool) : Word :=
  if is32bit then
    (ALU.rotateRight ((welem immn imms).setWidth 32) ((r immn imms immr).toNat % 32)).setWidth 64
  else ALU.rotateRight (welem immn imms) (r immn imms immr).toNat

def tmask : Word := telem immn imms immr

end DecodeBitMasks

namespace DataProcessing

theorem byte_add (count : Nat) : 8 + 8 * count = 8 * (count + 1) := by omega

def catBytes {n : Nat} (bits : BitVec n) : (count : Nat) → BitVec (8 * count)
  | 0 => 0
  | count + 1 => (ALU.getByte bits count ++ catBytes bits count).cast (byte_add count)

/-- `Catify` of `2 ^ level` containers. -/
def catify : (level size : Nat) → BitVec size → BitVec size
  | 0, size, bits => (catBytes bits (size / 8)).setWidth size
  | level + 1, size, bits =>
    (catify level (size / 2) (bits.extractLsb' (size / 2) (size / 2)) ++
      catify level (size / 2) (bits.extractLsb' 0 (size / 2))).setWidth size

variable (a : Word) (op : Op) (is32bit : Bool)

def countLeadingBits : Word :=
  BitVec.ofNat 64 (
    if is32bit then
      if op = OP_CLS then ALU.countLeadingZeroBits (ALU.countifyLeadingSignBits (a.setWidth 32)) 32
      else ALU.countLeadingZeroBits (a.setWidth 32) 32
    else if op = OP_CLS then ALU.countLeadingZeroBits (ALU.countifyLeadingSignBits a) 64
    else ALU.countLeadingZeroBits a 64)

def rev : Word :=
  if is32bit then
    match op with
    | OP_REV16 => (catify 1 32 (a.setWidth 32)).setWidth 64
    | OP_REV32 => (catify 0 32 (a.setWidth 32)).setWidth 64
    | _ => a
  else
    match op with
    | OP_REV16 => catify 2 64 a
    | OP_REV32 => catify 1 64 a
    | OP_REV => catify 0 64 a
    | _ => a

def res : Word :=
  match op with
  | OP_CLS | OP_CLZ => countLeadingBits a op is32bit
  | OP_REV | OP_REV32 | OP_REV16 => rev a op is32bit
  | _ => a

end DataProcessing

namespace ExtendReg

variable (value : Word) (option : BitVec 3)

def valSExt : Word :=
  match option.extractLsb' 0 2 with
  | 0#2 => (value.setWidth 8).signExtend 64
  | 1#2 => (value.setWidth 16).signExtend 64
  | 2#2 => (value.setWidth 32).signExtend 64
  | _ => value

def valUExt : Word :=
  match option.extractLsb' 0 2 with
  | 0#2 => (value.setWidth 8).setWidth 64
  | 1#2 => (value.setWidth 16).setWidth 64
  | 2#2 => (value.setWidth 32).setWidth 64
  | _ => value

def res (shift : BitVec 2) : Word := (if option.getLsbD 2 then valSExt value option else valUExt value option) <<< shift.toNat

end ExtendReg

structure EInst where
  rd : Valid (BitVec 5)
  nzcv : Valid (BitVec 4)
  res : Word
deriving DecidableEq

namespace ExecuteUnit

variable (dinst : DInst) (rVal : Fin 3 → Word) (nzcv : BitVec 4)

/-- Register 31 is zero, or the stack pointer where two of the types read it so. -/
def rVal1 : Word :=
  if dinst.rs1 = 31 then
    match dinst.itype with
    | .ASImm | .ASER => rVal 0
    | _ => 0
  else rVal 0

def rVal2 : Word := if dinst.rs2 = 31 then 0 else rVal 1

def extendReg : Word := ExtendReg.res (rVal 1) (dinst.shiftVal.bits.extractLsb' 3 3) 0

def shiftWord : Word :=
  match dinst.itype with
  | .ASER => extendReg dinst rVal
  | .PCRel | .ASImm | .CCImm => dinst.imm.setWidth 64
  | .DP2S | .LogI | .BitF => rVal1 dinst rVal
  | _ => rVal2 dinst rVal

/-- Without a shift value the word is passed on. -/
def shiftAmount : BitVec 6 :=
  if dinst.shiftVal.valid then
    match dinst.itype with
    | .DP2S => (rVal 1).setWidth 6
    | .ASER => (dinst.shiftVal.bits.extractLsb' 0 3).setWidth 6
    | _ => dinst.shiftVal.bits
  else 0

def shiftALU : Word := ShiftALU.res (shiftWord dinst rVal) (shiftAmount dinst rVal) dinst.shiftType dinst.is32bit

def condRes : Bool := ConditionHolds.res dinst.cond.bits nzcv

-- N, immr and imms of an immediate
def immn : Bool := dinst.imm.getLsbD 12
def immr : BitVec 6 := dinst.imm.extractLsb' 6 6
def imms : BitVec 6 := dinst.imm.extractLsb' 0 6

def wmask : Word := DecodeBitMasks.wmask (immn dinst) (imms dinst) (immr dinst) dinst.is32bit

def tmask : Word := DecodeBitMasks.tmask (immn dinst) (imms dinst) (immr dinst)

def bitfield : Word :=
  BitfieldALU.res dinst.op (imms dinst) (rVal1 dinst rVal) (rVal2 dinst rVal) (wmask dinst) (tmask dinst) (shiftALU dinst rVal)

def move : Word := Move.res dinst.op (dinst.imm.extractLsb' 16 2) (dinst.imm.extractLsb' 0 16) (rVal2 dinst rVal)

def aluVal2 : Word :=
  match dinst.itype with
  | .LogI => wmask dinst
  | _ => shiftALU dinst rVal

def logicB : Word := if dinst.op.getLsbD 0 then ~~~aluVal2 dinst rVal else aluVal2 dinst rVal

def logicALU : Word := LogicALU.res (rVal1 dinst rVal) (logicB dinst rVal) dinst.op

def logicNZCV : BitVec 4 := LogicALU.nzcv (rVal1 dinst rVal) (logicB dinst rVal) dinst.op dinst.is32bit

def dataProcessing : Word := DataProcessing.res (rVal1 dinst rVal) dinst.op dinst.is32bit

def adderIn : Word × Word × Bool :=
  let inverted := if dinst.op.getLsbD 0 then ~~~aluVal2 dinst rVal else aluVal2 dinst rVal
  match dinst.itype with
  | .CSel =>
    (0, if dinst.op = OP_CSINV ∨ dinst.op = OP_CSNEG then ~~~aluVal2 dinst rVal else aluVal2 dinst rVal,
      dinst.op = OP_CSINC ∨ dinst.op = OP_CSNEG)
  | .CCImm | .CCReg => (rVal1 dinst rVal, inverted, dinst.op = OP_CCMP)
  | _ => (rVal1 dinst rVal, inverted, dinst.op = OP_SUB)

def addWithCarry : Word :=
  AddWithCarry.res dinst.is32bit (adderIn dinst rVal).1 (adderIn dinst rVal).2.1 (adderIn dinst rVal).2.2

def addWithCarryNZCV : BitVec 4 :=
  AddWithCarry.nzcv dinst.is32bit (adderIn dinst rVal).1 (adderIn dinst rVal).2.1 (adderIn dinst rVal).2.2

def res : Word :=
  match dinst.itype with
  | .BitF => bitfield dinst rVal
  | .DP1S => dataProcessing dinst rVal
  | .DP2S => shiftALU dinst rVal
  | .ASSR | .ASER | .ASImm => addWithCarry dinst rVal
  | .MovI => move dinst rVal
  | .CSel => if condRes dinst nzcv then rVal1 dinst rVal else addWithCarry dinst rVal
  | _ => logicALU dinst rVal

def rd : Valid (BitVec 5) :=
  match dinst.itype with
  | .LogSR | .LogI => ⟨dinst.rd.bits != 31, dinst.rd.bits⟩
  | _ => dinst.rd

def nzcvBits : BitVec 4 :=
  match dinst.itype with
  | .LogSR | .LogI => logicNZCV dinst rVal
  | .CCImm | .CCReg => if condRes dinst nzcv then addWithCarryNZCV dinst rVal else dinst.nzcv.bits
  | _ => addWithCarryNZCV dinst rVal

def valid : Bool :=
  match dinst.itype with
  | .LogSR | .LogI | .BitF | .DP1S | .DP2S | .CCImm | .CCReg | .ASImm | .ASSR | .ASER | .MovI | .CSel => true
  | _ => false

def einst : Valid EInst where
  valid := valid dinst
  bits := ⟨rd dinst, ⟨dinst.nzcv.valid, nzcvBits dinst rVal nzcv⟩, res dinst rVal nzcv⟩

end ExecuteUnit

end KnockoutKraken.Armflex
