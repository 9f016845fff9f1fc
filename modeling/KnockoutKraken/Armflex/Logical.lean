import KnockoutKraken.Armflex.ExecuteUnit

/-!
# Logical (shifted register)

The logic unit works on 64 bits in both widths. The result is read in its
low bits only, but the zero flag looks at all of them.
-/

namespace KnockoutKraken.Armflex

open Arm Library

def logicalCode (w : BitVec 32) (inverted : Bool) : Op :=
  ((if opc w = 3 then 0 else opc w) ++ BitVec.ofBool inverted).setWidth 4

theorem LogicALU.res_eq (w : BitVec 32) (inverted : Bool) (a b : Word) :
    LogicALU.res a b (logicalCode w inverted) = logicalOp w a b := by
  have hOpc : opc w = 0 ∨ opc w = 1 ∨ opc w = 2 ∨ opc w = 3 := by
    generalize opc w = code
    revert code
    decide
  unfold logicalCode logicalOp
  rcases hOpc with h | h | h | h <;> rw [h] <;> cases inverted <;> rfl

theorem logicalCode_inverted (w : BitVec 32) (inverted : Bool) : (logicalCode w inverted).getLsbD 0 = inverted := by
  unfold logicalCode
  generalize opc w = code
  revert code inverted
  decide

theorem logicalOp_and {n : Nat} {w : BitVec 32} (hOpc : opc w = 3) (a b : BitVec n) : logicalOp w a b = a &&& b := by
  rw [logicalOp, hOpc]
  rfl

theorem setWidth_logicalOp {n : Nat} (w : BitVec 32) (a b : Word) :
    (logicalOp w a b).setWidth n = logicalOp w (a.setWidth n) (b.setWidth n) := by
  unfold logicalOp
  split
  · exact BitVec.setWidth_or
  · exact BitVec.setWidth_xor
  · exact BitVec.setWidth_and

/-- The flags of the architecture, when nothing is left above the result. -/
theorem LogicALU.nzcv_eq_iff {n : Nat} {is32bit : Bool} (h : Width n is32bit) (a b : Word) (code : Op) :
    LogicALU.nzcv a b code is32bit =
        catNZCV ((LogicALU.res a b code).setWidth n).msb ((LogicALU.res a b code).setWidth n == 0) false false ↔
      ((LogicALU.res a b code).setWidth n = 0 → LogicALU.res a b code = 0) := by
  have hCat (sign z z' : Bool) : catNZCV sign z false false = catNZCV sign z' false false ↔ z = z' := by
    revert sign z z'
    decide
  have hSign : (if is32bit then (LogicALU.res a b code).getLsbD 31 else (LogicALU.res a b code).getLsbD 63) =
      ((LogicALU.res a b code).setWidth n).msb := by
    rw [BitVec.msb_eq_getLsbD_last]
    cases h <;> simp
  have hZero : LogicALU.res a b code = 0 → (LogicALU.res a b code).setWidth n = 0 := fun hRes => by rw [hRes]; simp
  rw [LogicALU.nzcv, hSign, hCat, Bool.eq_iff_iff, beq_iff_eq, beq_iff_eq]
  exact ⟨fun hIff => hIff.mpr, fun hLow => ⟨hZero, hLow⟩⟩

/-- The upper half of the second operand of a 32-bit form: what a left shift moves out of the lower half,
inverted where the operation inverts it. -/
def upperOperand (w : BitVec 32) (reg : BitVec 5 → Word) : BitVec 32 :=
  let movedOut := if w.extractLsb' 22 2 = LSL then
    (((reg (Rm w)).setWidth 32).setWidth 64 <<< (imm6 w).toNat).extractLsb' 32 32 else 0
  if invert w then ~~~movedOut else movedOut

section Word

variable {w : BitVec 32} (hMatches : (diagram .LogSR).Matches w) (hReserved : reserved w .LogSR = false)
  (reg : BitVec 5 → Word) (nzcv : BitVec 4)

def logicalSignals (w : BitVec 32) : ControlSignals :=
  ⟨.LogSR, logicalCode w (invert w), !(opc w == 3 && !invert w && Rd w == 31), true, false, opc w == 3, !sf w⟩

def logicalSecond (w : BitVec 32) (reg : BitVec 5 → Word) : Word :=
  let shifted := ShiftALU.res (reg (Rm w)) (imm6 w) (w.extractLsb' 22 2) !sf w
  if invert w then ~~~shifted else shifted

include hReserved in
theorem logicalSecond_setWidth (hRm : Rm w ≠ 31) : (logicalSecond w reg).setWidth (datasize w) =
    if invert w then ~~~shiftedRegister (datasize w) reg w else shiftedRegister (datasize w) reg w := by
  have h := width_datasize w
  rw [logicalSecond, setWidth_ite_not h.le, ShiftALU.res_setWidth h _ (h.amount_lt hReserved), shiftedRegister, X_eq hRm]

theorem extractLsb'_setWidth_upper (x : BitVec 32) : (x.setWidth 64).extractLsb' 32 32 = 0 := by
  apply BitVec.eq_of_getLsbD_eq
  intro i hi
  simp [BitVec.getLsbD_extractLsb', BitVec.getLsbD_setWidth, show 32 ≤ 32 + i by omega]

theorem eq_zero_iff_halves (x : Word) : x = 0 ↔ x.setWidth 32 = 0 ∧ x.extractLsb' 32 32 = 0 := by
  constructor
  · rintro rfl
    decide
  · rintro ⟨hLow, hHigh⟩
    apply BitVec.eq_of_getLsbD_eq
    intro i hi
    by_cases hi32 : i < 32
    · have hBit : (x.setWidth 32).getLsbD i = false := by rw [hLow]; simp
      simpa [hi32] using hBit
    · have hBit : (x.extractLsb' 32 32).getLsbD (i - 32) = false := by rw [hHigh]; simp
      rw [BitVec.getLsbD_extractLsb', show 32 + (i - 32) = i by omega, decide_eq_true (by omega), Bool.true_and] at hBit
      simpa using hBit

include hReserved in
theorem logicalSecond_upper (hsf : sf w = false) : (logicalSecond w reg).extractLsb' 32 32 = upperOperand w reg := by
  have hLt : (imm6 w).toNat < 32 := by
    rw [reserved, hsf] at hReserved
    exact Width.w.amount_lt hReserved
  have hUpper : (ShiftALU.res (reg (Rm w)) (imm6 w) (w.extractLsb' 22 2) true).extractLsb' 32 32 =
      if w.extractLsb' 22 2 = LSL then (((reg (Rm w)).setWidth 32).setWidth 64 <<< (imm6 w).toNat).extractLsb' 32 32 else 0 := by
    have hAmount : (imm6 w).toNat % 32 = (imm6 w).toNat := Nat.mod_eq_of_lt hLt
    rw [ShiftALU.res, if_pos rfl]
    generalize w.extractLsb' 22 2 = type
    have hType : type = LSL ∨ type = LSR ∨ type = ASR ∨ type = ROR := by revert type; decide
    rcases hType with rfl | rfl | rfl | rfl <;> simp only [ShiftALU.res32, hAmount]
    · rfl
    · exact extractLsb'_setWidth_upper _
    · exact extractLsb'_setWidth_upper _
    · exact extractLsb'_setWidth_upper _
  rw [logicalSecond, upperOperand, hsf]
  change (if invert w then ~~~ShiftALU.res _ _ _ true else ShiftALU.res _ _ _ true).extractLsb' 32 32 = _
  rw [← hUpper]
  cases invert w with
  | false => rfl
  | true =>
    apply BitVec.eq_of_getLsbD_eq
    intro i hi
    simp [hi, show 32 + i < 64 by omega]

include hMatches in
theorem execute_logical (hRn : Rn w ≠ 31) (hRm : Rm w ≠ 31) :
    (execute w (controlSignals w) reg nzcv).valid = true ∧
      (execute w (controlSignals w) reg nzcv).bits.outcome (datasize w) =
        ⟨writeX (Rd w) ((logicalOp w (reg (Rn w)) (logicalSecond w reg)).setWidth (datasize w)),
          if opc w = 3 then some (LogicALU.nzcv (reg (Rn w)) (logicalSecond w reg) (logicalCode w (invert w)) !sf w) else none⟩ := by
  have hSignals : controlSignals w = logicalSignals w := controlSignals_of_matches hMatches
  rw [hSignals]
  refine ⟨rfl, ?_⟩
  let dinst := DInst.ofSignals w (logicalSignals w)
  have hFirst : ExecuteUnit.rVal1 dinst (dinst.readPorts reg) = reg (Rn w) := if_neg hRn
  have hShifted : ExecuteUnit.aluVal2 dinst (dinst.readPorts reg) =
      ShiftALU.res (reg (Rm w)) (imm6 w) (w.extractLsb' 22 2) !sf w :=
    congrArg (fun v => ShiftALU.res v (imm6 w) (w.extractLsb' 22 2) !sf w) (if_neg hRm)
  have hSecond : ExecuteUnit.logicB dinst (dinst.readPorts reg) = logicalSecond w reg := by
    rw [ExecuteUnit.logicB, hShifted]
    change (if (logicalCode w (invert w)).getLsbD 0 then _ else _) = _
    rw [logicalCode_inverted]
    rfl
  have hRes : ExecuteUnit.logicALU dinst (dinst.readPorts reg) = logicalOp w (reg (Rn w)) (logicalSecond w reg) := by
    rw [ExecuteUnit.logicALU, hFirst, hSecond]
    exact LogicALU.res_eq w (invert w) _ _
  have hFlags : ExecuteUnit.logicNZCV dinst (dinst.readPorts reg) =
      LogicALU.nzcv (reg (Rn w)) (logicalSecond w reg) (logicalCode w (invert w)) !sf w := by
    rw [ExecuteUnit.logicNZCV, hFirst, hSecond]
    rfl
  have hOutcome : (execute w (logicalSignals w) reg nzcv).bits.outcome (datasize w) =
      ⟨if Rd w != 31 then some (Rd w, (ExecuteUnit.logicALU dinst (dinst.readPorts reg)).setWidth (datasize w)) else none,
        if opc w == 3 then some (ExecuteUnit.logicNZCV dinst (dinst.readPorts reg)) else none⟩ := rfl
  rw [hOutcome, hRes, hFlags, writeX]
  congr 1
  · by_cases hRd : Rd w = 31 <;> simp [hRd]
  · by_cases hOpc : opc w = 3 <;> simp [hOpc]

/-- A logical operation with a shifted register is right but for one case: the 32-bit form sets the flags, its
result is zero, and the unit has ones above it. -/
theorem logical_iff (hMatches : (diagram .LogSR).Matches w) (hReserved : reserved w .LogSR = false)
    (hRegisters : ∀ r ∈ registers w .LogSR, r ≠ 31) (reg : BitVec 5 → Word) (nzcv : BitVec 4) :
    (execute w (controlSignals w) reg nzcv).valid = true ∧
        (execute w (controlSignals w) reg nzcv).bits.outcome (datasize w) = logicalShiftedOutcome (datasize w) reg w ↔
      (sf w = false → opc w = 3 → logicalShifted 32 reg w = 0 →
        (reg (Rn w)).extractLsb' 32 32 &&& upperOperand w reg = 0) := by
  have hRn : Rn w ≠ 31 := hRegisters _ (by simp [registers])
  have hRm : Rm w ≠ 31 := hRegisters _ (by simp [registers])
  obtain ⟨hValid, hOutcome⟩ := execute_logical hMatches reg nzcv hRn hRm
  have hResult : (logicalOp w (reg (Rn w)) (logicalSecond w reg)).setWidth (datasize w) = logicalShifted (datasize w) reg w := by
    rw [setWidth_logicalOp, logicalSecond_setWidth hReserved reg hRm, logicalShifted, X_eq hRn]
  rw [hValid, hOutcome, logicalShiftedOutcome, logicalFlags, hResult]
  by_cases hOpc : opc w = 3
  · have hFlags := LogicALU.nzcv_eq_iff (width_datasize w) (reg (Rn w)) (logicalSecond w reg) (logicalCode w (invert w))
    rw [LogicALU.res_eq, hResult] at hFlags
    simp only [if_pos hOpc, Outcome.mk.injEq, Option.some.injEq, true_and, hFlags]
    cases hsf : sf w with
    | true =>
      have hn : datasize w = 64 := by rw [datasize, hsf]; rfl
      rw [hn, BitVec.setWidth_eq] at hResult
      rw [hn, hResult]
      exact ⟨fun _ hWide => absurd hWide (by decide), fun _ => id⟩
    | false =>
      have hn : datasize w = 32 := by rw [datasize, hsf]; rfl
      have hUpper : (logicalOp w (reg (Rn w)) (logicalSecond w reg)).extractLsb' 32 32 =
          (reg (Rn w)).extractLsb' 32 32 &&& upperOperand w reg := by
        rw [← logicalSecond_upper hReserved reg hsf, ← BitVec.extractLsb'_and, logicalOp_and hOpc]
      rw [hn] at hResult
      rw [hn, eq_zero_iff_halves, hResult, hUpper]
      exact ⟨fun hAll _ _ hZero => (hAll hZero).2, fun hAll hZero => ⟨hZero, hAll rfl hOpc hZero⟩⟩
  · simp only [if_neg hOpc, true_and, true_iff]
    exact fun _ hThree => absurd hThree hOpc

end Word

/-- `AND X0, X1, X2`. -/
theorem logical_iff_and :
    (execute 0x8A020020#32 (controlSignals 0x8A020020#32) (fun _ => 1) 0).valid = true ∧
        (execute 0x8A020020#32 (controlSignals 0x8A020020#32) (fun _ => 1) 0).bits.outcome (datasize 0x8A020020#32) =
          logicalShiftedOutcome (datasize 0x8A020020#32) (fun _ => 1) 0x8A020020#32 ↔
      (sf 0x8A020020#32 = false → opc 0x8A020020#32 = 3 → logicalShifted 32 (fun _ => 1) 0x8A020020#32 = 0 →
        (1 : Word).extractLsb' 32 32 &&& upperOperand 0x8A020020#32 (fun _ => 1) = 0) :=
  logical_iff (by decide) (by decide) (by decide) (fun _ => 1) 0

/-- `ANDS W0, W1, W2, LSL #1` of 2^32 and 2^31: the result is zero, and the zero flag is not set. -/
theorem ands_zero_flag_clear :
    let reg : BitVec 5 → Word := fun r => if r = 1 then 0x100000000 else 0x80000000
    (logicalShiftedOutcome (datasize 0x6A020420#32) reg 0x6A020420#32).nzcv = some 0b0100#4 ∧
      ((execute 0x6A020420#32 (controlSignals 0x6A020420#32) reg 0).bits.outcome (datasize 0x6A020420#32)).nzcv = some 0 := by
  decide

end KnockoutKraken.Armflex
