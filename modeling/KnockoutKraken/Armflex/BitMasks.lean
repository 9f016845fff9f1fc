import KnockoutKraken.Armflex.Logical

/-!
# Bit masks and logical immediates

A mask is a run of ones in an element, rotated in it and repeated over the
register. The unit rotates the run in the whole register and repeats
nothing, which is the same when the register is one element.
-/

namespace KnockoutKraken.Armflex

open Arm Library

section Masks

variable {immN : Bool} {imms immr : BitVec 6} {len : Nat}

theorem maskLen_le (h : maskLen immN imms = some len) : len ≤ 6 := by
  have hMem := List.mem_of_find?_eq_some h
  have hLt := List.mem_range.mp (List.mem_reverse.mp hMem)
  omega

theorem maskLen_le_of_not (h : maskLen false imms = some len) : len ≤ 5 := by
  have hLe := maskLen_le h
  have hBit : (BitVec.ofBool false ++ ~~~imms).getLsbD len = true := List.find?_some h
  apply Nat.le_of_not_lt
  intro hLt
  obtain rfl : len = 6 := by omega
  rw [BitVec.getLsbD_append] at hBit
  cases hBit

def levelBits (len : Nat) : BitVec 6 := ones 6 len

theorem DecodeBitMasks.levels_eq (h : maskLen immN imms = some len) : DecodeBitMasks.levels immN imms = levelBits len := by
  have hLen : DecodeBitMasks.len immN imms = len := congrArg (fun o => Option.getD o 0) h
  have hLe := maskLen_le h
  have hAll : ∀ k < 7, (DecodeBitMasks.onesTable k).setWidth 6 = levelBits k := by decide
  rw [DecodeBitMasks.levels, hLen, hAll len (by omega)]

theorem toNat_and_levels (x : BitVec 6) {len : Nat} (hLe : len ≤ 6) : (x &&& levelBits len).toNat = x.toNat % 2 ^ len := by
  have hLevels : (levelBits len).toNat = 2 ^ len - 1 := by
    have hAll : ∀ k < 7, (levelBits k).toNat = 2 ^ k - 1 := by decide
    exact hAll len (by omega)
  rw [BitVec.toNat_and, hLevels, Nat.and_two_pow_sub_one_eq_mod]

theorem getLsbD_onesTable {count : Nat} (h : count ≤ 64) (i : Nat) : (DecodeBitMasks.onesTable count).getLsbD i = decide (i < count) := by
  rw [DecodeBitMasks.onesTable, BitVec.getLsbD_ofNat, Nat.testBit_two_pow_sub_one]
  by_cases hi : i < count
  · simp [hi, show i < 64 by omega]
  · simp [hi]

theorem decodeBitMasks_eq (m : Nat) (hLen : maskLen immN imms = some (len + 1)) (immediate : Bool)
    (hAllowed : immediate = true → imms &&& levelBits (len + 1) ≠ levelBits (len + 1)) :
    let esize := 2 ^ (len + 1)
    let s := imms.toNat % esize
    let r := immr.toNat % esize
    decodeBitMasks m immN imms immr immediate =
      some (replicate m ((ones esize (s + 1)).rotateRight r), replicate m (ones esize ((s + esize - r) % esize + 1))) := by
  intro esize s r
  have hLe := maskLen_le hLen
  have hs : (imms &&& levelBits (len + 1)).toNat = s := toNat_and_levels imms hLe
  have hr : (immr &&& levelBits (len + 1)).toNat = r := toNat_and_levels immr hLe
  rw [decodeBitMasks, hLen]
  change (if immediate = true ∧ imms &&& levelBits (len + 1) = levelBits (len + 1) then none
    else some (replicate m ((ones esize ((imms &&& levelBits (len + 1)).toNat + 1)).rotateRight (immr &&& levelBits (len + 1)).toNat),
      replicate m (ones esize (((imms &&& levelBits (len + 1)).toNat + esize - (immr &&& levelBits (len + 1)).toNat) % esize + 1)))) = _
  rw [if_neg fun hReserved => hAllowed hReserved.1 hReserved.2, hs, hr]

/-- A bit of a mask: the run starts where the rotation puts it, in each element. -/
theorem getLsbD_replicate_rotateRight {m esize count r i : Nat} (hr : r < esize) (hi : i < m) :
    (replicate m ((ones esize count).rotateRight r)).getLsbD i = decide ((i + r) % esize < count) := by
  have hEsize : 0 < esize := Nat.zero_lt_of_lt hr
  rw [getLsbD_replicate, getLsbD_rotateRight_mod _ hr (Nat.mod_lt i hEsize), getLsbD_ones, decide_eq_true hi, Bool.true_and,
    Nat.mod_add_mod, decide_eq_true (Nat.mod_lt _ hEsize), Bool.true_and]

theorem DecodeBitMasks.getLsbD_wmask {n : Nat} {is32bit : Bool} (h : Width n is32bit) (hLen : maskLen immN imms = some len)
    {i : Nat} (hi : i < n) (hEsize : 2 ^ len ≤ n) :
    (DecodeBitMasks.wmask immN imms immr is32bit).getLsbD i =
      decide ((i + immr.toNat % 2 ^ len) % n < imms.toNat % 2 ^ len + 1) := by
  have hLe := maskLen_le hLen
  have hs : (DecodeBitMasks.s immN imms).toNat = imms.toNat % 2 ^ len := by
    rw [DecodeBitMasks.s, DecodeBitMasks.levels_eq hLen, toNat_and_levels imms hLe]
  have hr : (DecodeBitMasks.r immN imms immr).toNat = immr.toNat % 2 ^ len := by
    rw [DecodeBitMasks.r, DecodeBitMasks.levels_eq hLen, toNat_and_levels immr hLe]
  have hrLt : immr.toNat % 2 ^ len < 2 ^ len := Nat.mod_lt _ (Nat.two_pow_pos len)
  have hsLt : imms.toNat % 2 ^ len < 2 ^ len := Nat.mod_lt _ (Nat.two_pow_pos len)
  rw [DecodeBitMasks.wmask, DecodeBitMasks.welem, hs, hr]
  cases h with
  | x =>
    rw [if_neg Bool.false_ne_true, ALU.getLsbD_rotateRight _ _ hi, getLsbD_onesTable (by omega)]
  | w =>
    have hi64 : i < 64 := by omega
    rw [if_pos rfl, BitVec.getLsbD_setWidth, decide_eq_true hi64, Bool.true_and, ALU.getLsbD_rotateRight _ _ hi,
      Nat.mod_eq_of_lt (by omega : immr.toNat % 2 ^ len < 32), BitVec.getLsbD_setWidth,
      decide_eq_true (Nat.mod_lt _ (by decide)), Bool.true_and, getLsbD_onesTable (by omega)]

/-- The unit's mask is right when the register is one element, and only then: the run also starts one element further. -/
theorem DecodeBitMasks.wmask_eq_iff (immr : BitVec 6) {n : Nat} {is32bit : Bool} (h : Width n is32bit) (hLen : maskLen immN imms = some len)
    (hEsize : 2 ^ len ≤ n) :
    (DecodeBitMasks.wmask immN imms immr is32bit).setWidth n =
        replicate n ((ones (2 ^ len) (imms.toNat % 2 ^ len + 1)).rotateRight (immr.toNat % 2 ^ len)) ↔
      2 ^ len = n := by
  have hrLt : immr.toNat % 2 ^ len < 2 ^ len := Nat.mod_lt _ (Nat.two_pow_pos len)
  have hsLt : imms.toNat % 2 ^ len < 2 ^ len := Nat.mod_lt _ (Nat.two_pow_pos len)
  constructor
  · intro hEq
    apply Nat.le_antisymm hEsize
    apply Nat.le_of_not_lt
    intro hLt
    have hNext : 2 ^ len - immr.toNat % 2 ^ len < n := by omega
    have hBit := congrArg (fun v => v.getLsbD (2 ^ len - immr.toNat % 2 ^ len)) hEq
    simp only [BitVec.getLsbD_setWidth, decide_eq_true hNext, Bool.true_and] at hBit
    rw [getLsbD_wmask h hLen hNext hEsize, getLsbD_replicate_rotateRight hrLt hNext, Nat.sub_add_cancel hrLt.le,
      Nat.mod_eq_of_lt hLt, Nat.mod_self, decide_eq_true (Nat.succ_pos _), decide_eq_true_eq] at hBit
    omega
  · intro hOne
    apply BitVec.eq_of_getLsbD_eq
    intro i hi
    rw [BitVec.getLsbD_setWidth, decide_eq_true hi, Bool.true_and, getLsbD_wmask h hLen hi hEsize,
      getLsbD_replicate_rotateRight hrLt hi, hOne]

end Masks

section Word

variable {w : BitVec 32}

/-- An immediate that is not reserved has an element length, which a narrow register bounds. -/
theorem maskLen_of_allocated (hSignals : (signals w .LogI).isSome = true) (hReserved : reserved w .LogI = false) :
    ∃ len, maskLen (N w) (imms w) = some (len + 1) ∧ imms w &&& levelBits (len + 1) ≠ levelBits (len + 1) ∧
      2 ^ (len + 1) ≤ datasize w := by
  have hSome : (decodeBitMasks 64 (N w) (imms w) (immr w) true).isSome = true := by
    rw [reserved, immediateMask, Option.isNone_map] at hReserved
    simpa using hReserved
  rw [decodeBitMasks] at hSome
  cases hLen : maskLen (N w) (imms w) with
  | none => rw [hLen] at hSome; cases hSome
  | some len =>
    cases len with
    | zero => rw [hLen] at hSome; cases hSome
    | succ len =>
      refine ⟨len, rfl, ?_, ?_⟩
      · intro hAll
        rw [hLen] at hSome
        change (if true = true ∧ imms w &&& levelBits (len + 1) = levelBits (len + 1) then none else _).isSome = true at hSome
        rw [if_pos ⟨rfl, hAll⟩] at hSome
        cases hSome
      · cases hsf : sf w with
        | true =>
          rw [datasize, hsf]
          exact Nat.pow_le_pow_right (by decide) (maskLen_le hLen)
        | false =>
          have hN : N w = false := by
            cases hN : N w with
            | false => rfl
            | true =>
              rw [signals, hsf, hN] at hSignals
              cases hSignals
          rw [datasize, hsf]
          rw [hN] at hLen
          exact Nat.pow_le_pow_right (by decide) (maskLen_le_of_not hLen)

theorem immediateFields_eq {sig : ControlSignals} (hType : sig.itype = .LogI ∨ sig.itype = .BitF) :
    ExecuteUnit.immn (DInst.ofSignals w sig) = N w ∧ ExecuteUnit.imms (DInst.ofSignals w sig) = imms w ∧
      ExecuteUnit.immr (DInst.ofSignals w sig) = immr w := by
  have hImm : (DInst.ofSignals w sig).imm = (w.extractLsb' 10 13).setWidth 26 := by
    rw [DInst.ofSignals]
    rcases hType with h | h <;> rw [h] <;> rfl
  refine ⟨?_, ?_, ?_⟩
  · rw [ExecuteUnit.immn, hImm, BitVec.getLsbD_setWidth, BitVec.getLsbD_extractLsb']
    rfl
  · rw [ExecuteUnit.imms, hImm]
    exact (extractLsb'_setWidth _ (by decide)).trans (extractLsb'_extractLsb' w 10 13 0 6 (by decide))
  · rw [ExecuteUnit.immr, hImm]
    exact (extractLsb'_setWidth _ (by decide)).trans (extractLsb'_extractLsb' w 10 13 6 6 (by decide))

def immediateSignals (w : BitVec 32) : ControlSignals :=
  ⟨.LogI, logicalCode w false, !(opc w == 3 && Rd w == 31), false, false, opc w == 3, !sf w⟩

theorem DecodeBitMasks.wmask_upper (immN : Bool) (imms immr : BitVec 6) :
    (DecodeBitMasks.wmask immN imms immr true).extractLsb' 32 32 = 0 := by
  rw [DecodeBitMasks.wmask, if_pos rfl]
  exact extractLsb'_setWidth_upper _

theorem execute_immediate (hMatches : (diagram .LogI).Matches w) (hSignals : (signals w .LogI).isSome = true)
    (reg : BitVec 5 → Word) (nzcv : BitVec 4) {mask : BitVec (datasize w)}
    (hMask : (DecodeBitMasks.wmask (N w) (imms w) (immr w) !sf w).setWidth (datasize w) = mask) :
    (execute w (controlSignals w) reg nzcv).valid = true ∧
      (execute w (controlSignals w) reg nzcv).bits.res.setWidth (datasize w) = logicalImmediate (datasize w) reg w mask ∧
      ((execute w (controlSignals w) reg nzcv).bits.outcome (datasize w)).nzcv =
        logicalFlags w (logicalImmediate (datasize w) reg w mask) := by
  have hSome : signals w .LogI = some (immediateSignals w) := by
    rw [signals] at hSignals ⊢
    split
    · next hNone =>
      rw [if_pos hNone] at hSignals
      cases hSignals
    · rfl
  rw [controlSignals_of_signals hMatches hSome rfl]
  let dinst := DInst.ofSignals w (immediateSignals w)
  have hFirst : (ExecuteUnit.rVal1 dinst (dinst.readPorts reg)).setWidth (datasize w) = X (datasize w) reg (Rn w) := by
    change (if Rn w = 31 then (0 : Word) else reg (Rn w)).setWidth (datasize w) = _
    rw [X, apply_ite (BitVec.setWidth (datasize w)), setWidth_zero_word]
  have hWmask : ExecuteUnit.wmask dinst = DecodeBitMasks.wmask (N w) (imms w) (immr w) !sf w := by
    obtain ⟨hN, hImms, hImmr⟩ := @immediateFields_eq w (immediateSignals w) (.inl rfl)
    rw [ExecuteUnit.wmask, hN, hImms, hImmr]
    rfl
  have hSecond : ExecuteUnit.logicB dinst (dinst.readPorts reg) = DecodeBitMasks.wmask (N w) (imms w) (immr w) !sf w := by
    rw [ExecuteUnit.logicB]
    change (if (logicalCode w false).getLsbD 0 then _ else ExecuteUnit.wmask dinst) = _
    rw [logicalCode_inverted, if_neg Bool.false_ne_true, hWmask]
  have hRes : ExecuteUnit.logicALU dinst (dinst.readPorts reg) =
      logicalOp w (ExecuteUnit.rVal1 dinst (dinst.readPorts reg)) (DecodeBitMasks.wmask (N w) (imms w) (immr w) !sf w) := by
    rw [ExecuteUnit.logicALU, hSecond]
    exact LogicALU.res_eq w false _ _
  have hResult : (ExecuteUnit.logicALU dinst (dinst.readPorts reg)).setWidth (datasize w) =
      logicalImmediate (datasize w) reg w mask := by
    rw [hRes, setWidth_logicalOp, hFirst, hMask, logicalImmediate]
  refine ⟨rfl, hResult, ?_⟩
  change (if opc w == 3 then some (ExecuteUnit.logicNZCV dinst (dinst.readPorts reg)) else none) = _
  rw [logicalFlags]
  by_cases hOpc : opc w = 3
  · rw [if_pos hOpc, if_pos (beq_iff_eq.mpr hOpc), Option.some.injEq, ← hResult]
    have hFlags := (LogicALU.nzcv_eq_iff (width_datasize w) (ExecuteUnit.rVal1 dinst (dinst.readPorts reg))
      (ExecuteUnit.logicB dinst (dinst.readPorts reg)) dinst.op).mpr
    refine hFlags fun hLow => ?_
    cases hsf : sf w with
    | true =>
      have hn : datasize w = 64 := by rw [datasize, hsf]; rfl
      rw [hn, BitVec.setWidth_eq] at hLow
      exact hLow
    | false =>
      have hn : datasize w = 32 := by rw [datasize, hsf]; rfl
      rw [hn] at hLow
      refine (eq_zero_iff_halves _).mpr ⟨hLow, ?_⟩
      change (ExecuteUnit.logicALU dinst (dinst.readPorts reg)).extractLsb' 32 32 = 0
      rw [hRes, hsf, logicalOp_and hOpc, BitVec.extractLsb'_and]
      exact (congrArg _ (DecodeBitMasks.wmask_upper _ _ _)).trans BitVec.and_zero
  · rw [if_neg hOpc, if_neg (mt beq_iff_eq.mp hOpc)]

/-- The unit's mask is the mask of the immediate, and the decoded word computes its operation and flags with it. -/
def ImmediateRight (w : BitVec 32) : Prop :=
  ∃ mask, immediateMask (datasize w) w = some mask ∧
    (DecodeBitMasks.wmask (N w) (imms w) (immr w) !sf w).setWidth (datasize w) = mask ∧
    ∀ reg nzcv, (execute w (controlSignals w) reg nzcv).valid = true ∧
      (execute w (controlSignals w) reg nzcv).bits.res.setWidth (datasize w) = logicalImmediate (datasize w) reg w mask ∧
      ((execute w (controlSignals w) reg nzcv).bits.outcome (datasize w)).nzcv =
        logicalFlags w (logicalImmediate (datasize w) reg w mask)

/-- A logical immediate is right exactly when its element is as wide as the register. -/
theorem logical_immediate_iff (hMatches : (diagram .LogI).Matches w) (hSignals : (signals w .LogI).isSome = true)
    (hReserved : reserved w .LogI = false) :
    ImmediateRight w ↔ maskLen (N w) (imms w) = some (if sf w then 6 else 5) := by
  obtain ⟨len, hLen, hAll, hEsize⟩ := maskLen_of_allocated hSignals hReserved
  have hSpec : immediateMask (datasize w) w = some (replicate (datasize w)
      ((ones (2 ^ (len + 1)) ((imms w).toNat % 2 ^ (len + 1) + 1)).rotateRight ((immr w).toNat % 2 ^ (len + 1)))) := by
    rw [immediateMask, decodeBitMasks_eq (datasize w) hLen true fun _ => hAll]
    rfl
  have hIff := DecodeBitMasks.wmask_eq_iff (immr w) (width_datasize w) hLen hEsize
  have hWidth : 2 ^ (len + 1) = datasize w ↔ maskLen (N w) (imms w) = some (if sf w then 6 else 5) := by
    rw [hLen, Option.some.injEq, datasize]
    cases sf w with
    | true => exact Nat.pow_right_inj (m := len + 1) (n := 6) (by decide)
    | false => exact Nat.pow_right_inj (m := len + 1) (n := 5) (by decide)
  constructor
  · rintro ⟨mask, hSome, hMask, -⟩
    rw [hSpec, Option.some.injEq] at hSome
    exact hWidth.mp (hIff.mp (hMask.trans hSome.symm))
  · intro hOne
    have hMask := hIff.mpr (hWidth.mpr hOne)
    exact ⟨_, hSpec, hMask, fun reg nzcv => execute_immediate hMatches hSignals reg nzcv hMask⟩

end Word

/-- `AND X0, X1, #1`. -/
theorem logical_immediate_iff_one :
    ImmediateRight 0x92400020#32 ↔ maskLen (N 0x92400020#32) (imms 0x92400020#32) = some (if sf 0x92400020#32 then 6 else 5) :=
  logical_immediate_iff (by decide) (by decide) (by decide)

/-- `AND X0, X1, #0x5555555555555555` of all ones: the mask has one bit. -/
theorem and_not_replicated :
    immediateMask 64 0x9200F020#32 = some 0x5555555555555555 ∧
      DecodeBitMasks.wmask (N 0x9200F020#32) (imms 0x9200F020#32) (immr 0x9200F020#32) (!sf 0x9200F020#32) = 1 ∧
      (execute 0x9200F020#32 (controlSignals 0x9200F020#32) (fun _ => -1) 0).bits.res = 1 := by
  decide +kernel

end KnockoutKraken.Armflex
