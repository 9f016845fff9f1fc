import KnockoutKraken.Armflex.ExecuteUnit

/-!
# Add and subtract

The adder compares a widened sum with the truncated one; these are the
carry and the overflow of the architecture. The classes that use it differ
in the operands and in what becomes of the flags.
-/

namespace KnockoutKraken.Armflex

open Arm Library

namespace AddWithCarry
section Sums
variable {n : Nat} (a b : BitVec n) (carry : Bool)

theorem toNat_unsignedSum (h : 0 < n) : (unsignedSum a b carry).toNat = a.toNat + b.toNat + carry.toNat := by
  have ha := a.isLt
  have hb := b.isLt
  have hPow : 2 ^ (n + 1) = 2 ^ n + 2 ^ n := by rw [Nat.pow_succ, Nat.mul_two]
  have hTwo : 2 ≤ 2 ^ n := Nat.le_self_pow (Nat.ne_of_gt h) 2
  have hc : carry.toNat ≤ 1 := Bool.toNat_le carry
  have hCarry : ((BitVec.ofBool carry).setWidth (n + 1)).toNat = carry.toNat := by
    rw [BitVec.toNat_setWidth, BitVec.toNat_ofBool, Nat.mod_eq_of_lt (by omega)]
  rw [unsignedSum, BitVec.toNat_add, BitVec.toNat_add, hCarry, BitVec.toNat_setWidth, BitVec.toNat_setWidth,
    Nat.mod_eq_of_lt (by omega : a.toNat < 2 ^ (n + 1)), Nat.mod_eq_of_lt (by omega : b.toNat < 2 ^ (n + 1)), Nat.mod_add_mod]
  exact Nat.mod_eq_of_lt (by omega)

theorem toInt_signedSum (h : 0 < n) : (signedSum a b carry).toInt = a.toInt + b.toInt + carry.toNat := by
  have haLe := a.le_two_mul_toInt
  have haLt := a.two_mul_toInt_lt
  have hbLe := b.le_two_mul_toInt
  have hbLt := b.two_mul_toInt_lt
  have hPow : (2 : Int) ^ (n + 1) = 2 * 2 ^ n := Int.pow_succ' ..
  have hPos : (0 : Int) < 2 ^ (n - 1) := Int.pow_pos (by decide)
  have hCarry : ((BitVec.ofBool carry).setWidth (n + 1)).toInt = carry.toNat := by
    cases carry with
    | false => simp
    | true => simp [BitVec.toInt_one (show 1 < n + 1 by omega)]
  have hc : carry.toNat ≤ 1 := Bool.toNat_le carry
  have hCast : ((2 ^ (n + 1) : Nat) : Int) = 2 * 2 ^ n := by rw [Int.natCast_pow]; exact hPow
  have hEven : (2 : Int) ^ n = 2 * 2 ^ (n - 1) := by rw [← Int.pow_succ', Nat.sub_add_cancel h]
  rw [signedSum, BitVec.toInt_add, BitVec.toInt_add, hCarry, BitVec.toInt_signExtend_of_le (Nat.le_succ n),
    BitVec.toInt_signExtend_of_le (Nat.le_succ n),
    Int.bmod_eq_of_le_mul_two (x := a.toInt + b.toInt) (by omega) (by omega)]
  exact Int.bmod_eq_of_le_mul_two (by omega) (by omega)

theorem sum_eq (h : 0 < n) : sum a b carry = (addWithCarry a b carry).1 := by
  apply BitVec.eq_of_toNat_eq
  rw [sum, BitVec.toNat_setWidth, toNat_unsignedSum a b carry h]
  rfl

theorem flags_eq (h : 0 < n) : flags a b carry = (addWithCarry a b carry).2 := by
  have hUnsigned : ((sum a b carry).setWidth (n + 1) != unsignedSum a b carry) = 
     ((sum a b carry).toNat != a.toNat + b.toNat + carry.toNat) := by
    rw [Bool.eq_iff_iff, bne_iff_ne, bne_iff_ne, ← toNat_unsignedSum a b carry h, Ne, Ne, ← BitVec.toNat_inj,
      BitVec.toNat_setWidth_of_le (Nat.le_succ n)]
  have hSigned : ((sum a b carry).signExtend (n + 1) != signedSum a b carry) = 
     ((sum a b carry).toInt != a.toInt + b.toInt + carry.toNat) := by
    rw [Bool.eq_iff_iff, bne_iff_ne, bne_iff_ne, ← toInt_signedSum a b carry h, Ne, Ne, ← BitVec.toInt_inj,
      BitVec.toInt_signExtend_of_le (Nat.le_succ n)]
  rw [flags, hUnsigned, hSigned, sum_eq a b carry h]
  rfl
end Sums
end AddWithCarry

theorem ConditionHolds.res_eq (cond nzcv : BitVec 4) : ConditionHolds.res cond nzcv = conditionHolds cond nzcv := by
  revert cond nzcv
  decide

namespace ExtendReg

/-- The container that is extended, in bits. -/
def container (option : BitVec 3) : Nat := 8 * 2 ^ (option.extractLsb' 0 2).toNat

theorem res_eq (value : Word) (option : BitVec 3) : res value option 0 =
    if option.getLsbD 2 then (value.setWidth (container option)).signExtend 64
    else (value.setWidth (container option)).setWidth 64 := by
  have hLow : option.extractLsb' 0 2 = 0 ∨ option.extractLsb' 0 2 = 1 ∨ option.extractLsb' 0 2 = 2 ∨ option.extractLsb' 0 2 = 3 := by
    revert option; decide
  have hZero (x : Word) : x <<< (0 : BitVec 2).toNat = x := BitVec.shiftLeft_zero x
  rw [res, hZero, valSExt, valUExt, container]
  rcases hLow with h | h | h | h <;> rw [h] 
  · rfl
  · rfl
  · rfl
  · simp

theorem shift_zeroExtend {n : Nat} (hn : n ≤ 64) (value : Word) (size : Nat) {shift : Nat} (hShift : shift < n) :
    ((value.setWidth size).setWidth 64).setWidth n <<< shift =
      ((value.setWidth n).extractLsb' 0 (min size (n - shift)) ++ (0 : BitVec shift)).setWidth n := by
  apply BitVec.eq_of_getLsbD_eq
  intro i hi
  simp only [BitVec.getLsbD_shiftLeft, BitVec.getLsbD_setWidth, BitVec.getLsbD_append, BitVec.getLsbD_extractLsb', decide_eq_true hi,
    Bool.true_and, Nat.zero_add]
  by_cases hLow : i < shift
  · simp [hLow]
  · have hBit : i - shift < n - shift := by omega
    simp [hLow, show i - shift < n by omega, show i - shift < 64 by omega, hBit]

theorem shift_signExtend {n : Nat} (hn : n ≤ 64) (value : Word) {size : Nat} (hSize : 0 < size) {shift : Nat} (hShift : shift < n) :
    ((value.setWidth size).signExtend 64).setWidth n <<< shift =
      ((value.setWidth n).extractLsb' 0 (min size (n - shift)) ++ (0 : BitVec shift)).signExtend n := by
  apply BitVec.eq_of_getLsbD_eq
  intro i hi
  rw [BitVec.getLsbD_signExtend]
  simp only [BitVec.getLsbD_shiftLeft, BitVec.getLsbD_setWidth, BitVec.getLsbD_append, BitVec.getLsbD_extractLsb', decide_eq_true hi,
    Bool.true_and, Nat.zero_add, BitVec.getLsbD_signExtend, BitVec.msb_eq_getLsbD_last]
  by_cases hLow : i < shift
  · simp [hLow, show i < min size (n - shift) + shift by omega]
  · by_cases hIn : i - shift < size
    · have hLen : i < min size (n - shift) + shift := by omega
      have hMin : i - shift < min size (n - shift) := by omega
      simp [hLow, hLen, hMin, hIn, show i - shift < n by omega, show i - shift < 64 by omega]
    · have hLen : ¬ i < min size (n - shift) + shift := by omega
      have hMin : min size (n - shift) = size := by omega
      simp only [hMin] at hLen ⊢
      simp [hLow, hLen, hIn, show i - shift < n by omega, show i - shift < 64 by omega, show ¬ size + shift - 1 < shift by omega,
        show size + shift - 1 - shift = size - 1 by omega, show size - 1 < n by omega]

theorem shift_setWidth {n : Nat} {is32bit : Bool} (h : Width n is32bit) (value : Word) (option : BitVec 3) {shift : Nat} (hShift : shift < n) :
    (res value option 0).setWidth n <<< shift = Arm.extendReg (value.setWidth n) option shift := by
  have hPos : 0 < container option := Nat.mul_pos (by decide) (Nat.two_pow_pos _)
  rw [res_eq, Arm.extendReg, ← container]
  split
  · exact shift_signExtend h.le value hPos hShift
  · exact shift_zeroExtend h.le value _ hShift

end ExtendReg

theorem AddWithCarry.res_setWidth {n : Nat} {is32bit : Bool} (h : Width n is32bit) (a b : Word) (carry : Bool) :
    (AddWithCarry.res is32bit a b carry).setWidth n = (addWithCarry (a.setWidth n) (b.setWidth n) carry).1 := by
  cases h with
  | x =>
    rw [BitVec.setWidth_eq, BitVec.setWidth_eq, BitVec.setWidth_eq]
    exact AddWithCarry.sum_eq a b carry (by decide)
  | w =>
    rw [AddWithCarry.res, if_pos rfl, BitVec.setWidth_setWidth_of_le _ (by decide), BitVec.setWidth_eq]
    exact AddWithCarry.sum_eq _ _ carry (by decide)

theorem AddWithCarry.nzcv_eq {n : Nat} {is32bit : Bool} (h : Width n is32bit) (a b : Word) (carry : Bool) :
    AddWithCarry.nzcv is32bit a b carry = (addWithCarry (a.setWidth n) (b.setWidth n) carry).2 := by
  cases h with
  | x =>
    rw [BitVec.setWidth_eq, BitVec.setWidth_eq]
    exact AddWithCarry.flags_eq a b carry (by decide)
  | w => exact AddWithCarry.flags_eq _ _ carry (by decide)

section Classes

variable {n : Nat} {w : BitVec 32} (h : Width n !sf w) (reg : BitVec 5 → Word) (nzcv : BitVec 4)

def addSubtractSignals (c : IType) (w : BitVec 32) : ControlSignals :=
  ⟨c, if op w then OP_SUB else OP_ADD, !(S w && Rd w == 31), true, false, S w, !sf w⟩

theorem addSubtract_op (w : BitVec 32) : (if op w then OP_SUB else OP_ADD).getLsbD 0 = op w ∧
    decide ((if op w then OP_SUB else OP_ADD) = OP_SUB) = op w := by
  cases op w <;> decide

/-- The adder with the second operand inverted, or not, and the same as its carry. -/
theorem addWithCarry_eq {dinst : DInst} {rVal : Fin 3 → Word} (hWidth : Width n dinst.is32bit) {sub : Bool}
    (hIn : ExecuteUnit.adderIn dinst rVal = (ExecuteUnit.rVal1 dinst rVal,
      if sub then ~~~ExecuteUnit.shiftALU dinst rVal else ExecuteUnit.shiftALU dinst rVal, sub))
    {operand1 operand2 : BitVec n} (h1 : (ExecuteUnit.rVal1 dinst rVal).setWidth n = operand1)
    (h2 : (ExecuteUnit.shiftALU dinst rVal).setWidth n = operand2) :
    (ExecuteUnit.addWithCarry dinst rVal).setWidth n = (Arm.addWithCarry operand1 (if sub then ~~~operand2 else operand2) sub).1 ∧
      ExecuteUnit.addWithCarryNZCV dinst rVal = (Arm.addWithCarry operand1 (if sub then ~~~operand2 else operand2) sub).2 := by
  constructor
  · rw [ExecuteUnit.addWithCarry, hIn, AddWithCarry.res_setWidth hWidth, setWidth_ite_not hWidth.le, h1, h2]
  · rw [ExecuteUnit.addWithCarryNZCV, hIn, AddWithCarry.nzcv_eq hWidth, setWidth_ite_not hWidth.le, h1, h2]

include h in
theorem addSubtract_outcome {c : IType} (hc : c = .ASSR ∨ c = .ASER ∨ c = .ASImm) {operand1 operand2 : BitVec n}
    {dinst : DInst} (hDinst : dinst = DInst.ofSignals w (addSubtractSignals c w))
    (h1 : (ExecuteUnit.rVal1 dinst (dinst.readPorts reg)).setWidth n = operand1)
    (h2 : (ExecuteUnit.shiftALU dinst (dinst.readPorts reg)).setWidth n = operand2)
    {mayWriteSP : Bool} (hRd : mayWriteSP = true ∨ S w = true ∨ Rd w ≠ 31) :
    (execute w (addSubtractSignals c w) reg nzcv).bits.outcome n = addSubtractOutcome w mayWriteSP operand1 operand2 := by
  have hOp := addSubtract_op w
  have hIn : ExecuteUnit.adderIn dinst (dinst.readPorts reg) = (ExecuteUnit.rVal1 dinst (dinst.readPorts reg),
      if op w then ~~~ExecuteUnit.shiftALU dinst (dinst.readPorts reg) else ExecuteUnit.shiftALU dinst (dinst.readPorts reg),
      op w) := by
    have hdOp : dinst.op = if op w then OP_SUB else OP_ADD := by rw [hDinst]; rfl
    have hdType : dinst.itype = c := by rw [hDinst]; rfl
    rw [← hdOp] at hOp
    rcases hc with rfl | rfl | rfl <;> simp only [ExecuteUnit.adderIn, ExecuteUnit.aluVal2, hdType, hOp]
  have hd32 : dinst.is32bit = !sf w := by rw [hDinst]; rfl
  obtain ⟨hSum, hFlags⟩ := addWithCarry_eq (hd32 ▸ h) hIn h1 h2
  have hOutcome : (execute w (addSubtractSignals c w) reg nzcv).bits.outcome n =
      ⟨if !(S w && Rd w == 31) then some (Rd w, (addSubtract w operand1 operand2).1) else none,
        if S w then some (addSubtract w operand1 operand2).2 else none⟩ := by
    rw [addSubtract, ← hSum, ← hFlags, hDinst]
    rcases hc with rfl | rfl | rfl <;> rfl
  have hWritten : (if !(S w && Rd w == 31) then some (Rd w, (addSubtract w operand1 operand2).1) else none) =
      if mayWriteSP && !S w then some (Rd w, (addSubtract w operand1 operand2).1)
      else writeX (Rd w) (addSubtract w operand1 operand2).1 := by
    unfold writeX
    cases hS : S w with
    | true => simp
    | false =>
      rw [hS] at hRd
      cases mayWriteSP with
      | true => rfl
      | false =>
        have hRd31 : ¬ Rd w = 31 := by simpa using hRd
        exact (if_neg hRd31).symm
  rw [hOutcome, addSubtractOutcome, hWritten]

include h in
theorem addSubtractShifted_conforms (hReserved : reserved w .ASSR = false) (hRn : Rn w ≠ 31) (hRm : Rm w ≠ 31)
    (hRd : S w = true ∨ Rd w ≠ 31) :
    (execute w (addSubtractSignals .ASSR w) reg nzcv).bits.outcome n = addSubtractShifted n reg w := by
  refine addSubtract_outcome h reg nzcv (.inl rfl) rfl ?_ ?_ (.inr hRd)
  · rw [X_eq hRn]
    exact congrArg _ (if_neg hRn)
  · have hAmount : (imm6 w).toNat < n := h.amount_lt (Bool.or_eq_false_iff.mp hReserved).2
    rw [shiftedRegister, X_eq hRm, ← ShiftALU.res_setWidth h (reg (Rm w)) hAmount]
    exact congrArg (fun v => (ShiftALU.res v (imm6 w) (w.extractLsb' 22 2) !sf w).setWidth n) (if_neg hRm)

include h in
theorem addSubtractExtended_conforms (hRm : Rm w ≠ 31) :
    (execute w (addSubtractSignals .ASER w) reg nzcv).bits.outcome n = addSubtractExtended n reg w := by
  have hImm3 : ((w.extractLsb' 10 3).setWidth 6).toNat = (w.extractLsb' 10 3).toNat := BitVec.toNat_setWidth_of_le (by decide)
  have hShift : (w.extractLsb' 10 3).toNat < n := Nat.lt_of_lt_of_le (w.extractLsb' 10 3).isLt (Nat.le_trans (by decide) h.ge)
  refine addSubtract_outcome h reg nzcv (.inr (.inl rfl)) rfl ?_ ?_ (.inl rfl)
  · exact congrArg _ (ite_self (reg (Rn w)))
  · have hFields : ExecuteUnit.shiftALU (DInst.ofSignals w (addSubtractSignals .ASER w))
        ((DInst.ofSignals w (addSubtractSignals .ASER w)).readPorts reg) =
        ShiftALU.res (ExtendReg.res (reg (Rm w)) ((w.extractLsb' 10 6).extractLsb' 3 3) 0)
          (((w.extractLsb' 10 6).extractLsb' 0 3).setWidth 6) LSL !sf w := rfl
    rw [hFields, extractLsb'_extractLsb' w 10 6 3 3 (by decide), extractLsb'_extractLsb' w 10 6 0 3 (by decide),
      ShiftALU.res_setWidth h _ (by rw [hImm3]; exact hShift), hImm3, X_eq hRm, ← ExtendReg.shift_setWidth h (reg (Rm w)) _ hShift]
    rfl

include h in
theorem addSubtractImmediate_conforms :
    (execute w (addSubtractSignals .ASImm w) reg nzcv).bits.outcome n = addSubtractImmediate n reg w := by
  have hImm : (((w.extractLsb' 10 12).setWidth 26).setWidth 64).setWidth n = (w.extractLsb' 10 12).setWidth n := by
    rw [BitVec.setWidth_setWidth_of_le _ h.le]
    exact BitVec.setWidth_setWidth (by omega)
  refine addSubtract_outcome h reg nzcv (.inr (.inr rfl)) rfl ?_ ?_ (.inl rfl)
  · exact congrArg _ (ite_self (reg (Rn w)))
  · have hFields : ExecuteUnit.shiftALU (DInst.ofSignals w (addSubtractSignals .ASImm w))
        ((DInst.ofSignals w (addSubtractSignals .ASImm w)).readPorts reg) =
        ShiftALU.res (((w.extractLsb' 10 12).setWidth 26).setWidth 64) (if w.getLsbD 22 then 12 else 0) LSL !sf w := rfl
    have hShift : (if w.getLsbD 22 then 12 else 0 : BitVec 6).toNat = if w.getLsbD 22 then 12 else 0 := by
      cases w.getLsbD 22 <;> rfl
    have hLt : (if w.getLsbD 22 then 12 else 0 : BitVec 6).toNat < n := by
      rw [hShift]
      exact Nat.lt_of_lt_of_le (by split <;> decide) h.ge
    rw [hFields, ShiftALU.res_setWidth h _ hLt, hImm, hShift]
    rfl

def compareSignals (c : IType) (w : BitVec 32) : ControlSignals :=
  ⟨c, if op w then OP_CCMP else OP_CCMN, false, false, true, true, !sf w⟩

include h in
theorem conditionalCompare_outcome {c : IType} (hc : c = .CCReg ∨ c = .CCImm) {operand1 operand2 : BitVec n}
    {dinst : DInst} (hDinst : dinst = DInst.ofSignals w (compareSignals c w))
    (h1 : (ExecuteUnit.rVal1 dinst (dinst.readPorts reg)).setWidth n = operand1)
    (h2 : (ExecuteUnit.shiftALU dinst (dinst.readPorts reg)).setWidth n = operand2) :
    (execute w (compareSignals c w) reg nzcv).bits.outcome n = conditionalCompare nzcv w operand1 operand2 := by
  have hOp : (if op w then OP_CCMP else OP_CCMN).getLsbD 0 = op w ∧
      decide ((if op w then OP_CCMP else OP_CCMN) = OP_CCMP) = op w := by
    cases op w <;> decide
  have hIn : ExecuteUnit.adderIn dinst (dinst.readPorts reg) = (ExecuteUnit.rVal1 dinst (dinst.readPorts reg),
      if op w then ~~~ExecuteUnit.shiftALU dinst (dinst.readPorts reg) else ExecuteUnit.shiftALU dinst (dinst.readPorts reg),
      op w) := by
    have hdOp : dinst.op = if op w then OP_CCMP else OP_CCMN := by rw [hDinst]; rfl
    have hdType : dinst.itype = c := by rw [hDinst]; rfl
    rw [← hdOp] at hOp
    rcases hc with rfl | rfl <;> simp only [ExecuteUnit.adderIn, ExecuteUnit.aluVal2, hdType, hOp]
  have hd32 : dinst.is32bit = !sf w := by rw [hDinst]; rfl
  obtain ⟨-, hFlags⟩ := addWithCarry_eq (hd32 ▸ h) hIn h1 h2
  rw [conditionalCompare, addSubtract, ← hFlags, ← ConditionHolds.res_eq, hDinst]
  rcases hc with rfl | rfl <;> rfl

theorem shiftALU_eq_of_not_shift {dinst : DInst} {rVal : Fin 3 → Word} (hWidth : Width n dinst.is32bit)
    (hShift : dinst.shiftVal.valid = false) (hType : dinst.shiftType = LSL) :
    (ExecuteUnit.shiftALU dinst rVal).setWidth n = (ExecuteUnit.shiftWord dinst rVal).setWidth n := by
  have hAmount : ExecuteUnit.shiftAmount dinst rVal = 0 := by
    rw [ExecuteUnit.shiftAmount, hShift]
    rfl
  have hShifted := ShiftALU.res_setWidth hWidth (ExecuteUnit.shiftWord dinst rVal) (show (0 : BitVec 6).toNat < n from hWidth.pos) LSL
  rw [ExecuteUnit.shiftALU, hAmount, hType, hShifted]
  exact BitVec.shiftLeft_zero _

include h in
theorem conditionalCompareRegister_conforms (hRn : Rn w ≠ 31) (hRm : Rm w ≠ 31) :
    (execute w (compareSignals .CCReg w) reg nzcv).bits.outcome n = conditionalCompareRegister n reg nzcv w := by
  refine conditionalCompare_outcome h reg nzcv (.inl rfl) rfl ?_ ?_
  · rw [X_eq hRn]
    exact congrArg _ (if_neg hRn)
  · rw [shiftALU_eq_of_not_shift h rfl rfl, X_eq hRm]
    exact congrArg _ (if_neg hRm)

include h in
theorem conditionalCompareImmediate_conforms (hMatches : (diagram .CCImm).Matches w) (hRn : Rn w ≠ 31) :
    (execute w (compareSignals .CCImm w) reg nzcv).bits.outcome n = conditionalCompareImmediate n reg nzcv w := by
  have hTop : w.getLsbD 21 = false := hMatches.getLsbD (by decide)
  refine conditionalCompare_outcome h reg nzcv (.inr rfl) rfl ?_ ?_
  · rw [X_eq hRn]
    exact congrArg _ (if_neg hRn)
  · have hImm : (w.extractLsb' 16 6).setWidth n = (w.extractLsb' 16 5).setWidth n := by
      apply BitVec.eq_of_getLsbD_eq
      intro i hi
      rcases Nat.lt_trichotomy i 5 with hLt | rfl | hGt
      · simp [hLt, Nat.lt_succ_of_lt hLt]
      · have hFive : w.getLsbD (16 + 5) = false := hTop
        simp only [BitVec.getLsbD_setWidth, BitVec.getLsbD_extractLsb', hFive, Bool.and_false, Nat.lt_irrefl, decide_false]
      · simp [show ¬ i < 5 by omega, show ¬ i < 6 by omega]
    have hWord : (((w.extractLsb' 16 6).setWidth 26).setWidth 64).setWidth n = (w.extractLsb' 16 6).setWidth n := by
      rw [BitVec.setWidth_setWidth_of_le _ h.le]
      exact BitVec.setWidth_setWidth (by omega)
    rw [shiftALU_eq_of_not_shift h rfl rfl, ← hImm, ← hWord]
    rfl

def selectSignals (w : BitVec 32) : ControlSignals :=
  ⟨.CSel, (BitVec.ofBool (op w) ++ BitVec.ofBool (w.getLsbD 10)).setWidth 4, true, false, true, false, !sf w⟩

theorem addWithCarry_zero (y : BitVec n) (carry : Bool) : (Arm.addWithCarry 0 y carry).1 = if carry then y + 1 else y := by
  apply BitVec.eq_of_toNat_eq
  cases carry with
  | false => simp [Arm.addWithCarry]
  | true => simp [Arm.addWithCarry, BitVec.toNat_add]

include h in
theorem conditionalSelect_conforms (hRd : Rd w ≠ 31) (hRn : Rn w ≠ 31) (hRm : Rm w ≠ 31) :
    (execute w (selectSignals w) reg nzcv).bits.outcome n = conditionalSelect n reg nzcv w := by
  let dinst := DInst.ofSignals w (selectSignals w)
  have hIn : ExecuteUnit.adderIn dinst (dinst.readPorts reg) =
      (0, if op w then ~~~ExecuteUnit.shiftALU dinst (dinst.readPorts reg) else ExecuteUnit.shiftALU dinst (dinst.readPorts reg),
        w.getLsbD 10) := by
    change (_, if (selectSignals w).op = OP_CSINV ∨ (selectSignals w).op = OP_CSNEG then _ else _,
      decide ((selectSignals w).op = OP_CSINC ∨ (selectSignals w).op = OP_CSNEG)) = _
    unfold selectSignals
    cases op w <;> cases w.getLsbD 10 <;> rfl
  have hAlu : (ExecuteUnit.shiftALU dinst (dinst.readPorts reg)).setWidth n = X n reg (Rm w) := by
    rw [shiftALU_eq_of_not_shift h rfl rfl, X_eq hRm]
    exact congrArg _ (if_neg hRm)
  have hSum : (ExecuteUnit.addWithCarry dinst (dinst.readPorts reg)).setWidth n =
      if w.getLsbD 10 then (if op w then ~~~X n reg (Rm w) else X n reg (Rm w)) + 1
      else if op w then ~~~X n reg (Rm w) else X n reg (Rm w) := by
    have hWidth : Width n dinst.is32bit := h
    rw [ExecuteUnit.addWithCarry, hIn, AddWithCarry.res_setWidth hWidth, setWidth_ite_not h.le, hAlu]
    change (Arm.addWithCarry ((0 : Word).setWidth n) _ _).1 = _
    rw [setWidth_zero_word]
    exact addWithCarry_zero _ _
  have hFirst : (ExecuteUnit.rVal1 dinst (dinst.readPorts reg)).setWidth n = X n reg (Rn w) := by
    rw [X_eq hRn]
    exact congrArg _ (if_neg hRn)
  have hOutcome : (execute w (selectSignals w) reg nzcv).bits.outcome n =
      ⟨some (Rd w, (if ConditionHolds.res (cond w) nzcv then ExecuteUnit.rVal1 dinst (dinst.readPorts reg)
        else ExecuteUnit.addWithCarry dinst (dinst.readPorts reg)).setWidth n), none⟩ := rfl
  rw [hOutcome, apply_ite (BitVec.setWidth n), hFirst, hSum, conditionalSelect, writeX, if_neg hRd, ConditionHolds.res_eq]

end Classes

/-- Add/subtract, conditional compare and conditional select compute what the architecture says. -/
theorem add_subtract_conforms {c : IType} {w : BitVec 32} (hMatches : (diagram c).Matches w) (hReserved : reserved w c = false)
    (hRegisters : ∀ r ∈ registers w c, r ≠ 31) (reg : BitVec 5 → Word) (nzcv : BitVec 4) {spec : Outcome (datasize w)}
    (hSpec : addSubtractFamily (datasize w) reg nzcv w c = some spec) :
    ∃ sig, signals w c = some sig ∧ (listed w c = true → DInst.decode w = DInst.ofSignals w sig) ∧
      (execute w sig reg nzcv).valid = true ∧ (execute w sig reg nzcv).bits.outcome (datasize w) = spec := by
  have h := width_datasize w
  have hRd (hMem : (if S w && Rd w == 31 then [] else [Rd w]) ⊆ registers w c) : S w = true ∨ Rd w ≠ 31 := by
    cases hS : S w with
    | true => exact .inl rfl
    | false =>
      rw [hS] at hMem
      exact .inr (hRegisters _ (hMem List.mem_cons_self))
  cases c <;> cases hSpec
  case CCImm =>
    refine ⟨_, rfl, decode_eq hMatches rfl, rfl, ?_⟩
    exact conditionalCompareImmediate_conforms h reg nzcv hMatches (hRegisters _ (by simp [registers]))
  case CCReg =>
    refine ⟨_, rfl, decode_eq hMatches rfl, rfl, ?_⟩
    exact conditionalCompareRegister_conforms h reg nzcv (hRegisters _ (by simp [registers])) (hRegisters _ (by simp [registers]))
  case CSel =>
    refine ⟨_, rfl, decode_eq hMatches rfl, rfl, ?_⟩
    exact conditionalSelect_conforms h reg nzcv (hRegisters _ (by simp [registers])) (hRegisters _ (by simp [registers]))
      (hRegisters _ (by simp [registers]))
  case ASImm =>
    refine ⟨_, rfl, decode_eq hMatches rfl, rfl, ?_⟩
    exact addSubtractImmediate_conforms h reg nzcv
  case ASSR =>
    refine ⟨_, rfl, decode_eq hMatches rfl, rfl, ?_⟩
    exact addSubtractShifted_conforms h reg nzcv hReserved (hRegisters _ (by simp [registers])) (hRegisters _ (by simp [registers]))
      (hRd (List.subset_append_right _ _))
  case ASER =>
    refine ⟨_, rfl, decode_eq hMatches rfl, rfl, ?_⟩
    exact addSubtractExtended_conforms h reg nzcv (hRegisters _ (by simp [registers]))

/-- `ADDS X0, X1, X2, LSL #3`. -/
theorem add_subtract_conforms_adds : ∃ sig, signals 0xAB020C20#32 .ASSR = some sig ∧
    (listed 0xAB020C20#32 .ASSR = true → DInst.decode 0xAB020C20#32 = DInst.ofSignals 0xAB020C20#32 sig) ∧
    (execute 0xAB020C20#32 sig (fun _ => -1) 0).valid = true ∧
    (execute 0xAB020C20#32 sig (fun _ => -1) 0).bits.outcome (datasize 0xAB020C20#32) =
      addSubtractShifted (datasize 0xAB020C20#32) (fun _ => -1) 0xAB020C20#32 :=
  add_subtract_conforms (by decide) (by decide) (by decide) (fun _ => -1) 0 rfl

end KnockoutKraken.Armflex
