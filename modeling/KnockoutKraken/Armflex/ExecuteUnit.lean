import KnockoutKraken.Arm.DataProcessing
import KnockoutKraken.Armflex.Execute

/-!
# The execute unit on an instruction word

A word with its control signals is put through the decoder's field
selection, the register ports and the execute unit; what it hands on is
compared with what the instruction is to do.
-/

namespace KnockoutKraken.Armflex

open Arm Library

def DInst.readPorts (dinst : DInst) (reg : BitVec 5 → Word) (k : Fin 3) : Word :=
  if k = 0 then reg dinst.rs1 else if k = 1 then reg dinst.rs2 else reg dinst.rd.bits

/-- What an executed instruction has to write, in registers of `n` bits. -/
def EInst.outcome (n : Nat) (einst : EInst) : Outcome n where
  written := if einst.rd.valid then some (einst.rd.bits, einst.res.setWidth n) else none
  nzcv := if einst.nzcv.valid then some einst.nzcv.bits else none

def execute (w : BitVec 32) (signals : ControlSignals) (reg : BitVec 5 → Word) (nzcv : BitVec 4) : Valid EInst :=
  ExecuteUnit.einst (DInst.ofSignals w signals) ((DInst.ofSignals w signals).readPorts reg) nzcv

/-- The decoder on a word of a class that is in its table. -/
theorem decode_eq {c : IType} {w : BitVec 32} (h : (diagram c).Matches w) {sig : ControlSignals} (hSignals : signals w c = some sig)
    (hListed : listed w c = true) : DInst.decode w = DInst.ofSignals w sig := by
  rw [DInst.decode, controlSignals_of_signals h hSignals hListed]

inductive Width : Nat → Bool → Prop where
  | x : Width 64 false
  | w : Width 32 true

theorem width_datasize (w : BitVec 32) : Width (datasize w) !sf w := by
  unfold datasize
  cases sf w with
  | false => exact .w
  | true => exact .x

namespace Width

variable {n : Nat} {is32bit : Bool}

theorem pos (h : Width n is32bit) : 0 < n := by
  cases h <;> decide

theorem le (h : Width n is32bit) : n ≤ 64 := by
  cases h <;> decide

theorem ge (h : Width n is32bit) : 32 ≤ n := by
  cases h <;> decide

theorem amount_lt (h : Width n is32bit) {amount : BitVec 6} (hAmount : (is32bit && amount.getLsbD 5) = false) :
    amount.toNat < n := by
  cases h with
  | x => exact amount.isLt
  | w =>
    revert amount
    decide

end Width

namespace ALU

theorem getLsbD_rotateRight {n : Nat} (norm : BitVec n) (rot : Nat) {i : Nat} (hi : i < n) :
    (rotateRight norm rot).getLsbD i = norm.getLsbD ((i + rot) % n) := by
  rw [rotateRight, getLsbD_ofBits, decide_eq_true hi, Bool.true_and]
  split
  · rw [show n + rot - (n - i) = i + rot by omega]
  · rfl

theorem rotateRight_eq {n rot : Nat} (norm : BitVec n) (h : rot < n) : rotateRight norm rot = norm.rotateRight rot := by
  apply BitVec.eq_of_getLsbD_eq
  intro i hi
  rw [getLsbD_rotateRight norm rot hi, getLsbD_rotateRight_mod norm h hi]

end ALU

section Widths

theorem setWidth_shiftLeft {n m : Nat} (hLe : n ≤ m) (x : BitVec n) (i : Nat) :
    (x.setWidth m <<< i).setWidth n = x <<< i := by
  apply BitVec.eq_of_getLsbD_eq
  intro j hj
  have hjm : j < m := Nat.lt_of_lt_of_le hj hLe
  have hji : j - i < m := Nat.lt_of_le_of_lt (Nat.sub_le j i) hjm
  simp only [BitVec.getLsbD_setWidth, BitVec.getLsbD_shiftLeft, decide_eq_true hj, decide_eq_true hjm, decide_eq_true hji,
    Bool.true_and]

theorem setWidth_ite_not {n : Nat} (hLe : n ≤ 64) (b : Bool) (x : Word) :
    (if b then ~~~x else x).setWidth n = if b then ~~~x.setWidth n else x.setWidth n := by
  cases b with
  | false => rfl
  | true => exact BitVec.setWidth_not hLe

theorem setWidth_zero_word (n : Nat) : (0 : Word).setWidth n = 0 := BitVec.setWidth_zero n 64

theorem extractLsb'_setWidth {m : Nat} (x : BitVec m) {k j l : Nat} (hle : j + l ≤ k) :
    (x.setWidth k).extractLsb' j l = x.extractLsb' j l := by
  apply BitVec.eq_of_getLsbD_eq
  intro b hb
  simp only [BitVec.getLsbD_extractLsb', BitVec.getLsbD_setWidth, decide_eq_true (show j + b < k by omega), Bool.true_and]

theorem setWidth_field (w : BitVec 32) (i : Nat) {m n k : Nat} (h : k ≤ m) (hn : k ≤ n) :
    ((w.extractLsb' i n).setWidth m).setWidth k = w.extractLsb' i k := by
  rw [BitVec.setWidth_setWidth_of_le _ h]
  apply BitVec.eq_of_getLsbD_eq
  intro j hj
  simp [hj, Nat.lt_of_lt_of_le hj hn]

theorem extractLsb'_extractLsb' {m : Nat} (x : BitVec m) (i k j l : Nat) (hle : j + l ≤ k) :
    (x.extractLsb' i k).extractLsb' j l = x.extractLsb' (i + j) l := by
  apply BitVec.eq_of_getLsbD_eq
  intro b hb
  simp only [BitVec.getLsbD_extractLsb', decide_eq_true hb, decide_eq_true (show j + b < k by omega), Bool.true_and, Nat.add_assoc]

variable {n : Nat} {is32bit : Bool}

/-- A shifted operand, by less than its width. -/
theorem ShiftALU.res_setWidth (h : Width n is32bit) (word : Word) {amount : BitVec 6} (hAmount : amount.toNat < n)
    (type : BitVec 2) : (ShiftALU.res word amount type is32bit).setWidth n = shiftReg (word.setWidth n) type amount.toNat := by
  have hType : type = LSL ∨ type = LSR ∨ type = ASR ∨ type = ROR := by revert type; decide
  cases h with
  | x =>
    rw [ShiftALU.res, if_neg Bool.false_ne_true, BitVec.setWidth_eq, BitVec.setWidth_eq]
    rcases hType with rfl | rfl | rfl | rfl
    · rfl
    · rfl
    · rfl
    · exact ALU.rotateRight_eq word hAmount
  | w =>
    rw [ShiftALU.res, if_pos rfl]
    rcases hType with rfl | rfl | rfl | rfl <;> simp only [ShiftALU.res32, Nat.mod_eq_of_lt hAmount]
    · exact setWidth_shiftLeft (by decide) _ _
    · exact BitVec.setWidth_setWidth_of_le _ (by decide)
    · exact BitVec.setWidth_setWidth_of_le _ (by decide)
    · rw [ALU.rotateRight_eq _ hAmount]
      exact BitVec.setWidth_setWidth_of_le _ (by decide)

end Widths

theorem X_eq {n : Nat} {reg : BitVec 5 → Word} {r : BitVec 5} (hr : r ≠ 31) : X n reg r = (reg r).setWidth n := if_neg hr

end KnockoutKraken.Armflex
