import KnockoutKraken.Arm.DataProcessing
import KnockoutKraken.Library.Indices

/-!
# The loads and stores

A word of these classes loads or stores one register, or two at addresses
next to each other. The base register may be the stack pointer, and it may
be written back with the address that the offset gives.
-/

namespace KnockoutKraken.Arm

structure Access where
  load : Bool
  pair : Bool
  size : BitVec 2
  signed : Bool
  wide : Bool
  address : BitVec 64
  register : Fin 2 → BitVec 5
  writeback : Option (BitVec 5 × BitVec 64)

namespace Access

variable (a : Access)

def bits : Nat := 8 * 2 ^ a.size.toNat

def Used (k : Fin 2) : Prop := k = 0 ∨ a.pair = true

def addressOf (k : Fin 2) : BitVec 64 := a.address + BitVec.ofNat 64 (k * 2 ^ a.size.toNat)

/-- What is loaded into a register of 64 or 32 bits. -/
def value (raw : BitVec 64) : BitVec 64 :=
  let data := raw.setWidth a.bits
  if a.wide then if a.signed then data.signExtend 64 else data.setWidth 64
  else if a.signed then (data.signExtend 32).setWidth 64 else (data.setWidth 32).setWidth 64

/-- The registers that are written when memory holds the given words at the two addresses. -/
def writes (raw : Fin 2 → BitVec 64) : List (BitVec 5 × BitVec 64) :=
  a.writeback.toList ++ (if a.load then [(a.register 0, a.value (raw 0))] else []) ++
    if a.load && a.pair then [(a.register 1, a.value (raw 1))] else []

end Access

section Classes

variable (reg : BitVec 5 → BitVec 64) (w : BitVec 32)

def Rt : BitVec 5 := w.extractLsb' 0 5

def Rt2 : BitVec 5 := w.extractLsb' 10 5

/-- The address is the base, and the offset is added afterwards. -/
def postindex : IType → Bool
  | .LSRegPo | .LSPairPo => true
  | _ => false

def wback : IType → Bool
  | .LSRegPo | .LSRegPr | .LSPairPo | .LSPairPr => true
  | _ => false

def indexed (offset : BitVec 64) : BitVec 64 := XorSP 64 reg (Rn w) + offset

def accessAddress (c : IType) (offset : BitVec 64) : BitVec 64 := if postindex c then XorSP 64 reg (Rn w) else indexed reg w offset

def accessWriteback (c : IType) (offset : BitVec 64) : Option (BitVec 5 × BitVec 64) :=
  if wback c then some (Rn w, indexed reg w offset) else none

def accessSingle (c : IType) (offset : BitVec 64) : Access where
  load := accessType w != 0
  pair := false
  size := size w
  signed := (accessType w).getLsbD 1
  wide := if (accessType w).getLsbD 1 then !(accessType w).getLsbD 0 else size w == 3
  address := accessAddress reg w c offset
  register _ := Rt w
  writeback := accessWriteback reg w c offset

def pairSize : BitVec 2 := if (size w).getLsbD 1 then 3 else 2

def accessPair (c : IType) : Access :=
  let offset := (w.extractLsb' 15 7).signExtend 64 <<< (pairSize w).toNat
  { load := w.getLsbD 22
    pair := true
    size := pairSize w
    signed := (size w).getLsbD 0
    wide := (size w).getLsbD 0 || (size w).getLsbD 1
    address := accessAddress reg w c offset
    register := fun k => if k = 0 then Rt w else Rt2 w
    writeback := accessWriteback reg w c offset }

def accessOffset : IType → BitVec 64
  | .LSUImm => (w.extractLsb' 10 12).setWidth 64 <<< (size w).toNat
  | .LSReg => extendReg (X 64 reg (Rm w)) (w.extractLsb' 13 3) (if w.getLsbD 12 then (size w).toNat else 0)
  | _ => (w.extractLsb' 12 9).signExtend 64

def access : IType → Option Access
  | .LSUImm => some (accessSingle reg w .LSUImm (accessOffset reg w .LSUImm))
  | .LSReg => some (accessSingle reg w .LSReg (accessOffset reg w .LSReg))
  | .LSUReg => some (accessSingle reg w .LSUReg (accessOffset reg w .LSUReg))
  | .LSRegPo => some (accessSingle reg w .LSRegPo (accessOffset reg w .LSRegPo))
  | .LSRegPr => some (accessSingle reg w .LSRegPr (accessOffset reg w .LSRegPr))
  | .LSPair => some (accessPair reg w .LSPair)
  | .LSPairPo => some (accessPair reg w .LSPairPo)
  | .LSPairPr => some (accessPair reg w .LSPairPr)
  | _ => none

def accessRegisters : IType → List (BitVec 5)
  | .LSUImm | .LSUReg | .LSRegPo | .LSRegPr => [Rt w]
  | .LSReg => [Rt w, Rm w]
  | .LSPair | .LSPairPo | .LSPairPr => [Rt w, Rt2 w]
  | _ => []

end Classes

end KnockoutKraken.Arm
