import KnockoutKraken.Library.OfBits

/-!
# The shared functions of the architecture

What the instructions are to compute, over words of any width and with
unbounded integers where the architecture uses them.
-/

namespace KnockoutKraken.Arm

open Library

def catNZCV (n z c v : Bool) : BitVec 4 := BitVec.ofBool n ++ BitVec.ofBool z ++ BitVec.ofBool c ++ BitVec.ofBool v

section Integers

variable {n : Nat} (x y : BitVec n)

/-- `AddWithCarry()`: the sum and the flags, by comparison with the sums without overflow. -/
def addWithCarry (carry : Bool) : BitVec n × BitVec 4 :=
  let unsignedSum := x.toNat + y.toNat + carry.toNat
  let signedSum := x.toInt + y.toInt + carry.toNat
  let result := BitVec.ofNat n unsignedSum
  (result, catNZCV result.msb (result == 0) (result.toNat != unsignedSum) (result.toInt != signedSum))

def shiftReg (type : BitVec 2) (amount : Nat) : BitVec n :=
  match type with
  | 0b00#2 => x <<< amount
  | 0b01#2 => x >>> amount
  | 0b10#2 => x.sshiftRight amount
  | _ => x.rotateRight amount

/-- `ExtendReg()`: the low bits of a register, moved up and then extended by zeros or the sign. -/
def extendReg (option : BitVec 3) (shift : Nat) : BitVec n :=
  let len := min (8 * 2 ^ (option.extractLsb' 0 2).toNat) (n - shift)
  let val := x.extractLsb' 0 len ++ (0 : BitVec shift)
  if option.getLsbD 2 then val.signExtend n else val.setWidth n

end Integers

def conditionHolds (cond nzcv : BitVec 4) : Bool :=
  let n := nzcv.getLsbD 3
  let z := nzcv.getLsbD 2
  let c := nzcv.getLsbD 1
  let v := nzcv.getLsbD 0
  let result :=
    match (cond.extractLsb' 1 3).toNat with
    | 0 => z
    | 1 => c
    | 2 => n
    | 3 => v
    | 4 => c && !z
    | 5 => n == v
    | 6 => n == v && !z
    | _ => true
  if cond.getLsbD 0 && cond != 0b1111#4 then !result else result

section Masks

def ones (n count : Nat) : BitVec n := ofBits n fun i => decide (i < count)

@[simp] theorem getLsbD_ones (n count i : Nat) : (ones n count).getLsbD i = (decide (i < n) && decide (i < count)) :=
  getLsbD_ofBits n _ i

/-- `Replicate()`: the word filled with copies of an element. -/
def replicate (m : Nat) {n : Nat} (x : BitVec n) : BitVec m := ofBits m fun i => x.getLsbD (i % n)

@[simp] theorem getLsbD_replicate (m : Nat) {n : Nat} (x : BitVec n) (i : Nat) :
    (replicate m x).getLsbD i = (decide (i < m) && x.getLsbD (i % n)) :=
  getLsbD_ofBits m _ i

def highestSetBit {n : Nat} (x : BitVec n) : Option Nat := (List.range n).reverse.find? fun i => x.getLsbD i

/-- The width of the elements of a bit mask, as a power of two. -/
def maskLen (immN : Bool) (imms : BitVec 6) : Option Nat := highestSetBit (BitVec.ofBool immN ++ ~~~imms)

/-- `DecodeBitMasks()`: both masks, unless the encoding is reserved. -/
def decodeBitMasks (m : Nat) (immN : Bool) (imms immr : BitVec 6) (immediate : Bool) : Option (BitVec m × BitVec m) :=
  match maskLen immN imms with
  | none | some 0 => none
  | some (len + 1) =>
    let levels := ones 6 (len + 1)
    if immediate = true ∧ imms &&& levels = levels then none
    else
      let s := (imms &&& levels).toNat
      let r := (immr &&& levels).toNat
      let esize := 2 ^ (len + 1)
      let d := (s + esize - r) % esize
      let welem := ones esize (s + 1)
      let telem := ones esize (d + 1)
      some (replicate m (welem.rotateRight r), replicate m telem)

end Masks

section Bits

variable {n : Nat} (x : BitVec n)

def reverseBits : BitVec n := ofBits n fun i => x.getLsbD (n - 1 - i)

def reverseBytes (container : Nat) : BitVec n :=
  ofBits n fun i =>
    let byte := i / 8
    x.getLsbD (8 * (byte / container * container + (container - 1 - byte % container)) + i % 8)

def countLeadingZeroBits : Nat :=
  match highestSetBit x with
  | none => n
  | some i => n - 1 - i

def countLeadingSignBits : Nat := countLeadingZeroBits (x.extractLsb' 1 (n - 1) ^^^ x.extractLsb' 0 (n - 1))

end Bits

end KnockoutKraken.Arm
