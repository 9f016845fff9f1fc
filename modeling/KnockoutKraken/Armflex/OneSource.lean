import KnockoutKraken.Armflex.ExecuteUnit
import Mathlib.Tactic.Ring

/-!
# Data-processing (1 source)

The reversals put the bytes back in the order in which they were, the
reversal of the bits is missing, and the counts are taken from the place
of the highest bit whether or not there is one.
-/

namespace KnockoutKraken.Armflex

open Arm Library

section Bytes

theorem DataProcessing.catBytes_eq {n : Nat} (bits : BitVec n) (count : Nat) :
    DataProcessing.catBytes bits count = bits.extractLsb' 0 (8 * count) := by
  induction count with
  | zero => exact BitVec.eq_of_getLsbD_eq fun i hi => absurd hi (Nat.not_lt_zero i)
  | succ count ih =>
    apply BitVec.eq_of_getLsbD_eq
    intro i hi
    rw [DataProcessing.catBytes, BitVec.getLsbD_cast, BitVec.getLsbD_append, ih]
    by_cases hLow : i < 8 * count
    · simp [hLow, hi]
    · have hByte : i - 8 * count < 8 := by omega
      simp [hLow, hi, hByte, ALU.getByte, Nat.mul_comm count 8, show 8 * count + (i - 8 * count) = i by omega]

theorem DataProcessing.catify_eq (level : Nat) {size : Nat} (hSize : 8 * 2 ^ level ∣ size) (bits : BitVec size) :
    DataProcessing.catify level size bits = bits := by
  induction level generalizing size with
  | zero =>
    obtain ⟨count, rfl⟩ := hSize
    rw [DataProcessing.catify, DataProcessing.catBytes_eq]
    apply BitVec.eq_of_getLsbD_eq
    intro i hi
    have hDiv : 8 * 2 ^ 0 * count / 8 = count := by omega
    rw [BitVec.getLsbD_setWidth, BitVec.getLsbD_extractLsb', hDiv]
    simp [show i < 8 * count by omega]
  | succ level ih =>
    obtain ⟨count, hCount⟩ := hSize
    have hTwice : size = 2 * (8 * 2 ^ level * count) := by rw [hCount, Nat.pow_succ]; ring
    have hHalf : size / 2 = 8 * 2 ^ level * count := by rw [hTwice, Nat.mul_div_cancel_left _ (by decide)]
    have hDvd : 8 * 2 ^ level ∣ size / 2 := ⟨count, hHalf⟩
    have hEven : size / 2 + size / 2 = size := by omega
    rw [DataProcessing.catify, ih hDvd, ih hDvd]
    apply BitVec.eq_of_getLsbD_eq
    intro i hi
    rw [BitVec.getLsbD_setWidth, BitVec.getLsbD_append, decide_eq_true hi, Bool.true_and]
    by_cases hLow : i < size / 2
    · simp [hLow]
    · simp [hLow, show i - size / 2 < size / 2 by omega, show size / 2 + (i - size / 2) = i by omega]

end Bytes

section Counts

variable {n : Nat}

theorem highestSetBit_eq_none {x : BitVec n} : highestSetBit x = none ↔ x = 0 := by
  rw [highestSetBit, List.find?_eq_none]
  constructor
  · intro hNone
    apply BitVec.eq_of_getLsbD_eq
    intro i hi
    have hBit := hNone i (List.mem_reverse.mpr (List.mem_range.mpr hi))
    simpa using hBit
  · rintro rfl i -
    simp

theorem highestSetBit_lt {x : BitVec n} {i : Nat} (h : highestSetBit x = some i) : i < n :=
  List.mem_range.mp (List.mem_reverse.mp (List.mem_of_find?_eq_some h))

theorem ofNat_eq_ofNat {a b : Nat} (ha : a ≤ n) (hb : b ≤ n) : BitVec.ofNat n a = BitVec.ofNat n b ↔ a = b := by
  have hPow : n < 2 ^ n := Nat.lt_two_pow_self
  constructor
  · intro hEq
    have hNat := congrArg BitVec.toNat hEq
    rwa [BitVec.toNat_ofNat, BitVec.toNat_ofNat, Nat.mod_eq_of_lt (Nat.lt_of_le_of_lt ha hPow),
      Nat.mod_eq_of_lt (Nat.lt_of_le_of_lt hb hPow)] at hNat
  · exact congrArg _

/-- The count of leading zeros is right unless there are only zeros. -/
theorem countLeadingZeroBits_iff (hn : 0 < n) (x : BitVec n) :
    BitVec.ofNat n (ALU.countLeadingZeroBits x n) = BitVec.ofNat n (countLeadingZeroBits x) ↔ x ≠ 0 := by
  have hUnit : ALU.countLeadingZeroBits x n = n - 1 - (highestSetBit x).getD 0 := rfl
  rw [hUnit, countLeadingZeroBits]
  cases hHighest : highestSetBit x with
  | none =>
    rw [ofNat_eq_ofNat (by omega) (Nat.le_refl n)]
    have hZero : x = 0 := highestSetBit_eq_none.mp hHighest
    simp only [Option.getD_none, ne_eq, hZero, not_true_eq_false, iff_false]
    omega
  | some i =>
    have hSet : x ≠ 0 := fun hZero => by
      rw [highestSetBit_eq_none.mpr hZero] at hHighest
      cases hHighest
    exact ⟨fun _ => hSet, fun _ => rfl⟩

theorem countify_eq_zero_iff (x : BitVec n) :
    ALU.countifyLeadingSignBits x = 0 ↔ x = 0 ∨ x = BitVec.allOnes n := by
  have hBit (i : Nat) (hi : i < n - 1) : (ALU.countifyLeadingSignBits x).getLsbD i = (x.getLsbD (i + 1) ^^ x.getLsbD i) := by
    rw [ALU.countifyLeadingSignBits, BitVec.getLsbD_xor, BitVec.getLsbD_extractLsb', BitVec.getLsbD_extractLsb', decide_eq_true hi,
      Bool.true_and, Bool.true_and, Nat.zero_add, Nat.add_comm 1 i]
  constructor
  · intro hZero
    have hStep (i : Nat) (hi : i < n - 1) : x.getLsbD (i + 1) = x.getLsbD i := by
      have hEq := hBit i hi
      rw [hZero] at hEq
      simpa using hEq
    have hAll (i : Nat) (hi : i < n) : x.getLsbD i = x.getLsbD 0 := by
      induction i with
      | zero => rfl
      | succ i ih => rw [hStep i (by omega), ih (by omega)]
    cases hFirst : x.getLsbD 0 with
    | false =>
      refine .inl (BitVec.eq_of_getLsbD_eq fun i hi => ?_)
      rw [hAll i hi, hFirst]
      simp
    | true =>
      refine .inr (BitVec.eq_of_getLsbD_eq fun i hi => ?_)
      rw [hAll i hi, hFirst, BitVec.getLsbD_allOnes, decide_eq_true hi]
  · intro hEq
    apply BitVec.eq_of_getLsbD_eq
    intro i hi
    rw [hBit i hi]
    rcases hEq with rfl | rfl
    · simp
    · simp [show i + 1 < n by omega, show i < n by omega]

/-- The count of leading sign bits is one too many unless all bits are equal. -/
theorem countLeadingSignBits_iff (hn : 1 < n) (x : BitVec n) :
    BitVec.ofNat n (ALU.countLeadingZeroBits (ALU.countifyLeadingSignBits x) n) = BitVec.ofNat n (countLeadingSignBits x) ↔
      x = 0 ∨ x = BitVec.allOnes n := by
  rw [← countify_eq_zero_iff]
  have hUnit : ALU.countLeadingZeroBits (ALU.countifyLeadingSignBits x) n =
      n - 1 - (highestSetBit (ALU.countifyLeadingSignBits x)).getD 0 := rfl
  rw [hUnit, countLeadingSignBits, ← ALU.countifyLeadingSignBits, countLeadingZeroBits]
  cases hHighest : highestSetBit (ALU.countifyLeadingSignBits x) with
  | none => exact ⟨fun _ => highestSetBit_eq_none.mp hHighest, fun _ => rfl⟩
  | some i =>
    have hLt := highestSetBit_lt hHighest
    have hSet : ALU.countifyLeadingSignBits x ≠ 0 := fun hZero => by
      rw [highestSetBit_eq_none.mpr hZero] at hHighest
      cases hHighest
    rw [ofNat_eq_ofNat (by simp only [Option.getD_some]; omega) (by simp only; omega)]
    simp only [Option.getD_some, hSet, iff_false]
    omega

end Counts

section Unit

variable {n : Nat} {is32bit : Bool} (h : Width n is32bit) (a : Word)

include h in
theorem DataProcessing.rev_setWidth {op : Op} (hOp : op = OP_REV16 ∨ op = OP_REV32 ∨ op = OP_REV) :
    (DataProcessing.rev a op is32bit).setWidth n = a.setWidth n := by
  have hNarrow (level : Nat) (hDvd : 8 * 2 ^ level ∣ 32) :
      ((DataProcessing.catify level 32 (a.setWidth 32)).setWidth 64).setWidth 32 = a.setWidth 32 := by
    rw [DataProcessing.catify_eq level hDvd, BitVec.setWidth_setWidth_of_le _ (by decide), BitVec.setWidth_eq]
  cases h with
  | x =>
    rcases hOp with rfl | rfl | rfl
    · exact congrArg _ (DataProcessing.catify_eq 2 (by decide) a)
    · exact congrArg _ (DataProcessing.catify_eq 1 (by decide) a)
    · exact congrArg _ (DataProcessing.catify_eq 0 (by decide) a)
  | w =>
    rcases hOp with rfl | rfl | rfl
    · exact hNarrow 1 (by decide)
    · exact hNarrow 0 (by decide)
    · rfl

include h in
theorem DataProcessing.countLeadingBits_setWidth (op : Op) : (DataProcessing.countLeadingBits a op is32bit).setWidth n =
    BitVec.ofNat n (if op = OP_CLS then ALU.countLeadingZeroBits (ALU.countifyLeadingSignBits (a.setWidth n)) n
      else ALU.countLeadingZeroBits (a.setWidth n) n) := by
  rw [DataProcessing.countLeadingBits]
  cases h with
  | x => rw [if_neg Bool.false_ne_true, BitVec.setWidth_eq, BitVec.setWidth_eq]
  | w => rw [if_pos rfl, BitVec.setWidth_ofNat_of_le (by decide)]

def OneSourceRight {n : Nat} (w : BitVec 32) (operand : BitVec n) : Prop :=
  match (opcode1 w).toNat with
  | 0 => reverseBits operand = operand
  | 1 => reverseBytes operand 2 = operand
  | 2 => reverseBytes operand 4 = operand
  | 3 => reverseBytes operand 8 = operand
  | 4 => operand ≠ 0
  | _ => operand = 0 ∨ operand = BitVec.allOnes n

include h in
theorem DataProcessing.res_iff {w : BitVec 32} {opcode : BitVec 3} (hOpcode : (opcode1 w).toNat = opcode.toNat)
    (hLt : opcode.toNat < 6) :
    (DataProcessing.res a (opcode.setWidth 4) is32bit).setWidth n = dataProcessing1Source w (a.setWidth n) ↔
      OneSourceRight w (a.setWidth n) := by
  have hCases : opcode = 0 ∨ opcode = 1 ∨ opcode = 2 ∨ opcode = 3 ∨ opcode = 4 ∨ opcode = 5 := by
    clear hOpcode
    revert opcode
    decide
  rw [dataProcessing1Source, OneSourceRight, hOpcode]
  rcases hCases with rfl | rfl | rfl | rfl | rfl | rfl
  · exact eq_comm
  · exact (Eq.congr_left (DataProcessing.rev_setWidth h a (.inl rfl))).trans eq_comm
  · exact (Eq.congr_left (DataProcessing.rev_setWidth h a (.inr (.inl rfl)))).trans eq_comm
  · exact (Eq.congr_left (DataProcessing.rev_setWidth h a (.inr (.inr rfl)))).trans eq_comm
  · exact (Eq.congr_left (DataProcessing.countLeadingBits_setWidth h a OP_CLZ)).trans (countLeadingZeroBits_iff h.pos _)
  · have hn : 1 < n := Nat.lt_of_lt_of_le (by decide) h.ge
    exact (Eq.congr_left (DataProcessing.countLeadingBits_setWidth h a OP_CLS)).trans (countLeadingSignBits_iff hn _)

end Unit

section Word

variable {w : BitVec 32} (reg : BitVec 5 → Word) (nzcv : BitVec 4)

def oneSourceSignals (w : BitVec 32) : ControlSignals :=
  ⟨.DP1S, (w.extractLsb' 10 3).setWidth 4, true, false, false, false, !sf w⟩

/-- A data-processing instruction with one source is right exactly for the operands that it may leave as they are,
and for the counts of what has a highest bit to count to, or no bit that differs from the sign. -/
theorem one_source_iff (hMatches : (diagram .DP1S).Matches w) (hSignals : (signals w .DP1S).isSome = true) :
    (execute w (controlSignals w) reg nzcv).valid = true ∧
        (execute w (controlSignals w) reg nzcv).bits.res.setWidth (datasize w) =
          dataProcessing1Source w (X (datasize w) reg (Rn w)) ↔
      OneSourceRight w (X (datasize w) reg (Rn w)) := by
  have h := width_datasize w
  have hSome : signals w .DP1S = some (oneSourceSignals w) := by
    rw [signals] at hSignals ⊢
    split
    · next hNone =>
      rw [if_pos hNone] at hSignals
      cases hSignals
    · rfl
  rw [controlSignals_of_signals hMatches hSome rfl]
  let dinst := DInst.ofSignals w (oneSourceSignals w)
  have hOperand : (ExecuteUnit.rVal1 dinst (dinst.readPorts reg)).setWidth (datasize w) = X (datasize w) reg (Rn w) := by
    change (if Rn w = 31 then (0 : Word) else reg (Rn w)).setWidth (datasize w) = _
    rw [X, apply_ite (BitVec.setWidth (datasize w)), setWidth_zero_word]
  have hRes : (execute w (oneSourceSignals w) reg nzcv).bits.res =
    DataProcessing.res (ExecuteUnit.rVal1 dinst (dinst.readPorts reg)) ((w.extractLsb' 10 3).setWidth 4) !sf w := rfl
  have hValid : (execute w (oneSourceSignals w) reg nzcv).valid = true := rfl
  have hOpcode : (opcode1 w).toNat = (w.extractLsb' 10 3).toNat := by
    have hHigh (i : Nat) (hi : 3 ≤ i ∧ i < 6) : w.getLsbD (10 + i) = false := by
      obtain rfl | rfl | rfl : i = 3 ∨ i = 4 ∨ i = 5 := by omega
      all_goals exact hMatches.getLsbD (by decide)
    have hWide : opcode1 w = (w.extractLsb' 10 3).setWidth 6 := by
      apply BitVec.eq_of_getLsbD_eq
      intro i hi
      rw [opcode1, BitVec.getLsbD_setWidth, BitVec.getLsbD_extractLsb', BitVec.getLsbD_extractLsb', decide_eq_true hi,
        Bool.true_and, Bool.true_and]
      by_cases hLow : i < 3
      · rw [decide_eq_true hLow, Bool.true_and]
      · rw [hHigh i ⟨by omega, hi⟩, Bool.and_false]
    rw [hWide]
    exact BitVec.toNat_setWidth_of_le (by decide)
  have hLt : (w.extractLsb' 10 3).toNat < 6 := by
    rw [signals] at hSignals
    split at hSignals
    · cases hSignals
    · next hNot =>
      have hLe : ¬ 6 ≤ w.extractLsb' 10 3 := fun hLe => hNot (.inr hLe)
      exact Nat.lt_of_not_le hLe
  rw [hRes, hValid, eq_self, true_and, ← hOperand]
  exact DataProcessing.res_iff h _ hOpcode hLt

end Word

/-- `CLZ X0, X1` of one. -/
theorem one_source_iff_clz : (execute 0xDAC01020#32 (controlSignals 0xDAC01020#32) (fun _ => 1) 0).valid = true ∧
      (execute 0xDAC01020#32 (controlSignals 0xDAC01020#32) (fun _ => 1) 0).bits.res.setWidth (datasize 0xDAC01020#32) =
        dataProcessing1Source 0xDAC01020#32 (X (datasize 0xDAC01020#32) (fun _ => 1) (Rn 0xDAC01020#32)) ↔
    OneSourceRight 0xDAC01020#32 (X (datasize 0xDAC01020#32) (fun _ => 1) (Rn 0xDAC01020#32)) :=
  one_source_iff (fun _ => 1) 0 (by decide) (by decide)

/-- `REV X0, X1` of one is one. -/
theorem rev_identity : dataProcessing1Source 0xDAC00C20#32 (X 64 (fun _ => 1) (Rn 0xDAC00C20#32)) = 0x0100000000000000 ∧
    (execute 0xDAC00C20#32 (controlSignals 0xDAC00C20#32) (fun _ => 1) 0).bits.res = 1 := by
  decide +kernel

end KnockoutKraken.Armflex
