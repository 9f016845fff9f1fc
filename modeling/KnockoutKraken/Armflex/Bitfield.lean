import KnockoutKraken.Armflex.BitMasks

/-!
# Bitfield and move wide

The masks of a bitfield have one element as wide as the register, so that
the unit that makes them is right here. What is left is bitwise.
-/

namespace KnockoutKraken.Armflex

open Arm Library

section Bitfield

variable {n : Nat} {is32bit : Bool} {immN : Bool} {imms immr : BitVec 6} {len : Nat}

theorem DecodeBitMasks.tmask_eq (h : Width n is32bit) (hLen : maskLen immN imms = some len) (hOne : 2 ^ len = n) :
    (DecodeBitMasks.tmask immN imms immr).setWidth n =
      replicate n (ones n ((imms.toNat % n + n - immr.toNat % n) % n + 1)) := by
  have hLe := maskLen_le hLen
  have hn := h.pos
  have hs : (DecodeBitMasks.s immN imms).toNat = imms.toNat % n := by
    rw [DecodeBitMasks.s, DecodeBitMasks.levels_eq hLen, toNat_and_levels imms hLe, hOne]
  have hr : (DecodeBitMasks.r immN imms immr).toNat = immr.toNat % n := by
    rw [DecodeBitMasks.r, DecodeBitMasks.levels_eq hLen, toNat_and_levels immr hLe, hOne]
  have hd : (DecodeBitMasks.d immN imms immr).toNat = (imms.toNat % n + n - immr.toNat % n) % n := by
    have hsLt : imms.toNat % n < n := Nat.mod_lt _ hn
    have hrLt : immr.toNat % n < n := Nat.mod_lt _ hn
    rw [DecodeBitMasks.d, DecodeBitMasks.levels_eq hLen, toNat_and_levels _ hLe, hOne, BitVec.toNat_sub, hs, hr]
    cases h <;> omega
  have hdLt : (imms.toNat % n + n - immr.toNat % n) % n < n := Nat.mod_lt _ hn
  have hn64 := h.le
  apply BitVec.eq_of_getLsbD_eq
  intro i hi
  rw [BitVec.getLsbD_setWidth, DecodeBitMasks.tmask, DecodeBitMasks.telem, hd, getLsbD_onesTable (by omega), getLsbD_replicate,
    Nat.mod_eq_of_lt hi, getLsbD_ones, decide_eq_true hi, Bool.true_and, Bool.true_and]

theorem BitfieldALU.res_setWidth (h : Width n is32bit) (code : BitVec 2) (hCode : code ≠ 3) {imms : BitVec 6}
    (hImms : imms.toNat < n) (src dst wmask tmask rorSrcR : Word) :
    (BitfieldALU.res (code.setWidth 4) imms src dst wmask tmask rorSrcR).setWidth n =
      let dst' : BitVec n := if code != 1 then 0 else dst.setWidth n
      let bot := (dst' &&& ~~~wmask.setWidth n) ||| (rorSrcR.setWidth n &&& wmask.setWidth n)
      let top := if code == 0 then (if (src.setWidth n).getLsbD imms.toNat then BitVec.allOnes n else 0) else dst'
      (top &&& ~~~tmask.setWidth n) ||| (bot &&& tmask.setWidth n) := by
  have hAll : code = 0 ∨ code = 1 ∨ code = 2 := by
    revert code
    decide
  have hSign : (src.setWidth n).getLsbD imms.toNat = src.getLsbD imms.toNat := by
    rw [BitVec.getLsbD_setWidth, decide_eq_true hImms, Bool.true_and]
  have hAnd (x : BitVec n) : 0 &&& x = 0 := BitVec.zero_and
  have hOr (x : BitVec n) : 0 ||| x = x := BitVec.zero_or
  have hn := h.le
  rcases hAll with rfl | rfl | rfl
  · have hTop : (if src.getLsbD imms.toNat then BitVec.allOnes 64 else 0).setWidth n =
        if (src.setWidth n).getLsbD imms.toNat then BitVec.allOnes n else 0 := by
      rw [hSign]
      cases src.getLsbD imms.toNat with
      | false => exact setWidth_zero_word n
      | true =>
        apply BitVec.eq_of_getLsbD_eq
        intro i hi
        rw [if_pos rfl, if_pos rfl, BitVec.getLsbD_setWidth, BitVec.getLsbD_allOnes, BitVec.getLsbD_allOnes, decide_eq_true hi,
          decide_eq_true (Nat.lt_of_lt_of_le hi hn), Bool.true_and]
    change (((if src.getLsbD imms.toNat then BitVec.allOnes 64 else 0) &&& ~~~tmask) |||
        ((rorSrcR &&& wmask) &&& tmask)).setWidth n =
      ((if (src.setWidth n).getLsbD imms.toNat then BitVec.allOnes n else 0) &&& ~~~tmask.setWidth n) |||
        (((0 &&& ~~~wmask.setWidth n) ||| (rorSrcR.setWidth n &&& wmask.setWidth n)) &&& tmask.setWidth n)
    rw [BitVec.setWidth_or, BitVec.setWidth_and, hTop, BitVec.setWidth_and, BitVec.setWidth_and, BitVec.setWidth_not hn,
      hAnd, hOr]
  · change ((dst &&& ~~~tmask) ||| (((dst &&& ~~~wmask) ||| (rorSrcR &&& wmask)) &&& tmask)).setWidth n =
      (dst.setWidth n &&& ~~~tmask.setWidth n) |||
        (((dst.setWidth n &&& ~~~wmask.setWidth n) ||| (rorSrcR.setWidth n &&& wmask.setWidth n)) &&& tmask.setWidth n)
    simp only [BitVec.setWidth_or, BitVec.setWidth_and, BitVec.setWidth_not hn]
  · change (((rorSrcR &&& wmask) &&& tmask) ||| ((rorSrcR &&& wmask) &&& tmask)).setWidth n =
      (0 &&& ~~~tmask.setWidth n) |||
        (((0 &&& ~~~wmask.setWidth n) ||| (rorSrcR.setWidth n &&& wmask.setWidth n)) &&& tmask.setWidth n)
    rw [BitVec.or_self, BitVec.setWidth_and, BitVec.setWidth_and, hAnd, hAnd, hOr, hOr]

end Bitfield

section Word

variable {w : BitVec 32} (reg : BitVec 5 → Word) (nzcv : BitVec 4)

def bitfieldSignals (w : BitVec 32) : ControlSignals := ⟨.BitF, (opc w).setWidth 4, true, true, false, false, !sf w⟩

/-- The element of a bitfield is as wide as the register. -/
theorem maskLen_bitfield (hN : N w = sf w) (hReserved : reserved w .BitF = false) :
    maskLen (N w) (imms w) = some (if sf w then 6 else 5) := by
  rw [hN]
  rw [reserved] at hReserved
  generalize imms w = s at hReserved
  generalize immr w = r at hReserved
  cases hsf : sf w with
  | true =>
    clear hReserved
    revert s
    decide
  | false =>
    have hs : s.getLsbD 5 = false := by
      rw [hsf] at hReserved
      exact (Bool.or_eq_false_iff.mp hReserved).2
    clear hReserved
    revert s
    decide

theorem bitfield_conforms (hMatches : (diagram .BitF).Matches w) (hSignals : (signals w .BitF).isSome = true)
    (hReserved : reserved w .BitF = false) (hRd : Rd w ≠ 31) (hRn : Rn w ≠ 31) :
    ∃ masks, decodeBitMasks (datasize w) (N w) (imms w) (immr w) false = some masks ∧
      (execute w (controlSignals w) reg nzcv).valid = true ∧
      (execute w (controlSignals w) reg nzcv).bits.outcome (datasize w) = bitfield (datasize w) reg w masks := by
  have h := width_datasize w
  have hAllowed : N w = sf w ∧ opc w ≠ 3 := by
    rw [signals] at hSignals
    split at hSignals
    · cases hSignals
    · next hNot =>
      rw [Bool.or_eq_true, not_or, bne_iff_ne, not_not, beq_iff_eq] at hNot
      exact hNot
  have hSome : signals w .BitF = some (bitfieldSignals w) := by
    rw [signals, hAllowed.1, bne_self_eq_false, Bool.false_or, if_neg (mt beq_iff_eq.mp hAllowed.2)]
    rfl
  have hLen := maskLen_bitfield hAllowed.1 hReserved
  obtain ⟨len, hSucc, hOne⟩ : ∃ len, (if sf w then 6 else 5) = len + 1 ∧ 2 ^ (len + 1) = datasize w := by
    rw [datasize]
    cases sf w with
    | true => exact ⟨5, rfl, rfl⟩
    | false => exact ⟨4, rfl, rfl⟩
  rw [hSucc] at hLen
  rw [controlSignals_of_signals hMatches hSome rfl]
  refine ⟨_, decodeBitMasks_eq (datasize w) hLen false (fun hFalse => by cases hFalse), rfl, ?_⟩
  let dinst := DInst.ofSignals w (bitfieldSignals w)
  have hImmr : (immr w).toNat < datasize w := h.amount_lt (by
    rw [reserved, Bool.and_or_distrib_left, Bool.or_eq_false_iff] at hReserved
    exact hReserved.1)
  have hImms : (imms w).toNat < datasize w := h.amount_lt (by
    rw [reserved, Bool.and_or_distrib_left, Bool.or_eq_false_iff] at hReserved
    exact hReserved.2)
  have hSrc : ExecuteUnit.rVal1 dinst (dinst.readPorts reg) = reg (Rn w) := if_neg hRn
  have hDst : ExecuteUnit.rVal2 dinst (dinst.readPorts reg) = reg (Rd w) := if_neg hRd
  have hRotated : (ExecuteUnit.shiftALU dinst (dinst.readPorts reg)).setWidth (datasize w) =
      (X (datasize w) reg (Rn w)).rotateRight (immr w).toNat := by
    have hFields : ExecuteUnit.shiftALU dinst (dinst.readPorts reg) =
        ShiftALU.res (ExecuteUnit.rVal1 dinst (dinst.readPorts reg)) (immr w) ROR !sf w := rfl
    rw [hFields, hSrc, ShiftALU.res_setWidth h _ hImmr, X_eq hRn]
    rfl
  obtain ⟨hFieldN, hFieldS, hFieldR⟩ := @immediateFields_eq w (bitfieldSignals w) (.inr rfl)
  have hOutcome : (execute w (bitfieldSignals w) reg nzcv).bits.outcome (datasize w) =
      ⟨some (Rd w, (ExecuteUnit.bitfield dinst (dinst.readPorts reg)).setWidth (datasize w)), none⟩ := rfl
  have hWmask : (ExecuteUnit.wmask dinst).setWidth (datasize w) =
      replicate (datasize w) ((ones (2 ^ (len + 1)) ((imms w).toNat % 2 ^ (len + 1) + 1)).rotateRight
        ((immr w).toNat % 2 ^ (len + 1))) := by
    rw [ExecuteUnit.wmask, hFieldN, hFieldS, hFieldR]
    exact (DecodeBitMasks.wmask_eq_iff (immr w) h hLen hOne.le).mpr hOne
  have hTmask : (ExecuteUnit.tmask dinst).setWidth (datasize w) =
      replicate (datasize w) (ones (2 ^ (len + 1))
        (((imms w).toNat % 2 ^ (len + 1) + 2 ^ (len + 1) - (immr w).toNat % 2 ^ (len + 1)) % 2 ^ (len + 1) + 1)) := by
    rw [ExecuteUnit.tmask, hFieldN, hFieldS, hFieldR, DecodeBitMasks.tmask_eq h hLen hOne, hOne]
  have hCombined := BitfieldALU.res_setWidth h (opc w) hAllowed.2 hImms (reg (Rn w)) (reg (Rd w)) (ExecuteUnit.wmask dinst)
    (ExecuteUnit.tmask dinst) (ExecuteUnit.shiftALU dinst (dinst.readPorts reg))
  rw [hWmask, hTmask, hRotated] at hCombined
  have hOp : dinst.op = (opc w).setWidth 4 := rfl
  rw [X_eq hRn] at hCombined
  rw [hOutcome, ExecuteUnit.bitfield, hFieldS, hSrc, hDst, hOp, hCombined]
  simp only [bitfield, writeX, if_neg hRd, X_eq hRn, X_eq hRd]

theorem Move.inserted_setWidth {n : Nat} (hn : n ≤ 64) (op : Op) (hw : BitVec 2) (imm : BitVec 16) (rd : Word) :
    (Move.inserted op hw imm rd).setWidth n =
      ((Move.result op rd).setWidth n &&& ~~~((BitVec.allOnes 16).setWidth n <<< (16 * hw.toNat))) |||
        (imm.setWidth n <<< (16 * hw.toNat)) := by
  apply BitVec.eq_of_getLsbD_eq
  intro i hi
  have hi64 : i < 64 := Nat.lt_of_lt_of_le hi hn
  simp only [BitVec.getLsbD_setWidth, Move.inserted, getLsbD_ofBits, Move.pos, BitVec.getLsbD_or, BitVec.getLsbD_and,
    BitVec.getLsbD_not, BitVec.getLsbD_shiftLeft, BitVec.getLsbD_allOnes, decide_eq_true hi, decide_eq_true hi64, Bool.true_and]
  by_cases hLow : i < 16 * hw.toNat
  · simp [hLow, show ¬ (16 * hw.toNat ≤ i ∧ i < 16 * hw.toNat + 16) by omega]
  · have hn' : i - 16 * hw.toNat < n := by omega
    by_cases hIn : i < 16 * hw.toNat + 16
    · simp [hLow, hn', show 16 * hw.toNat ≤ i ∧ i < 16 * hw.toNat + 16 by omega, show i - 16 * hw.toNat < 16 by omega]
    · have hOut : ¬ i - 16 * hw.toNat < 16 := by omega
      have hNone : imm.getLsbD (i - 16 * hw.toNat) = false := BitVec.getLsbD_of_ge _ _ (by omega)
      simp [hLow, hn', hIn, hOut, hNone]

def moveSignals (code : Op) (w : BitVec 32) : ControlSignals := ⟨.MovI, code, true, false, false, false, !sf w⟩

theorem moveWide_conforms (hMatches : (diagram .MovI).Matches w) (hSignals : (signals w .MovI).isSome = true) (hRd : Rd w ≠ 31) :
    (execute w (controlSignals w) reg nzcv).valid = true ∧
      (execute w (controlSignals w) reg nzcv).bits.outcome (datasize w) = moveWide (datasize w) reg w := by
  have h := width_datasize w
  have hCode : ∃ code, signals w .MovI = some (moveSignals code w) ∧
      (opc w = 0 ∧ code = OP_MOVN ∨ opc w = 2 ∧ code = OP_MOVZ ∨ opc w = 3 ∧ code = OP_MOVK) := by
    have hOpc : opc w = 0 ∨ opc w = 1 ∨ opc w = 2 ∨ opc w = 3 := by
      generalize opc w = code
      revert code
      decide
    cases hHigh : !sf w && w.getLsbD 22 with
    | true =>
      rw [signals, hHigh] at hSignals
      cases hSignals
    | false =>
      rw [signals, hHigh] at hSignals ⊢
      rcases hOpc with hOpc | hOpc | hOpc | hOpc <;> rw [hOpc] at hSignals ⊢
      · exact ⟨_, rfl, .inl ⟨rfl, rfl⟩⟩
      · cases hSignals
      · exact ⟨_, rfl, .inr (.inl ⟨rfl, rfl⟩)⟩
      · exact ⟨_, rfl, .inr (.inr ⟨rfl, rfl⟩)⟩
  obtain ⟨code, hSome, hCode⟩ := hCode
  rw [controlSignals_of_signals hMatches hSome rfl]
  refine ⟨rfl, ?_⟩
  let dinst := DInst.ofSignals w (moveSignals code w)
  have hDst : ExecuteUnit.rVal2 dinst (dinst.readPorts reg) = reg (Rd w) := if_neg hRd
  have hHw : dinst.imm.extractLsb' 16 2 = w.extractLsb' 21 2 :=
    (extractLsb'_setWidth _ (by decide)).trans (extractLsb'_extractLsb' w 5 18 16 2 (by decide))
  have hImm : dinst.imm.extractLsb' 0 16 = w.extractLsb' 5 16 :=
    (extractLsb'_setWidth _ (by decide)).trans (extractLsb'_extractLsb' w 5 18 0 16 (by decide))
  have hOutcome : (execute w (moveSignals code w) reg nzcv).bits.outcome (datasize w) =
      ⟨some (Rd w, (Move.res code (dinst.imm.extractLsb' 16 2) (dinst.imm.extractLsb' 0 16)
        (ExecuteUnit.rVal2 dinst (dinst.readPorts reg))).setWidth (datasize w)), none⟩ := rfl
  rw [hOutcome, hDst, hHw, hImm, moveWide, writeX, if_neg hRd]
  have hInserted := Move.inserted_setWidth h.le code (w.extractLsb' 21 2) (w.extractLsb' 5 16) (reg (Rd w))
  rcases hCode with ⟨hOpc, rfl⟩ | ⟨hOpc, rfl⟩ | ⟨hOpc, rfl⟩
  · have hBefore : (Move.result OP_MOVN (reg (Rd w))).setWidth (datasize w) = 0 := setWidth_zero_word _
    rw [hBefore] at hInserted
    rw [Move.res, if_pos rfl, BitVec.setWidth_not h.le, hInserted, hOpc]
    rfl
  · have hBefore : (Move.result OP_MOVZ (reg (Rd w))).setWidth (datasize w) = 0 := setWidth_zero_word _
    rw [hBefore] at hInserted
    rw [Move.res, if_neg (by decide), hInserted, hOpc]
    rfl
  · have hBefore : (Move.result OP_MOVK (reg (Rd w))).setWidth (datasize w) = X (datasize w) reg (Rd w) := (X_eq hRd).symm
    rw [hBefore] at hInserted
    rw [Move.res, if_neg (by decide), hInserted, hOpc]
    rfl

end Word

/-- Bitfield and move wide instructions compute what the architecture says. -/
theorem bitfield_move_conforms {c : IType} (hc : c = .BitF ∨ c = .MovI) {w : BitVec 32} (hMatches : (diagram c).Matches w)
    (hSignals : (signals w c).isSome = true) (hReserved : reserved w c = false) (hRegisters : ∀ r ∈ registers w c, r ≠ 31)
    (reg : BitVec 5 → Word) (nzcv : BitVec 4) :
    (execute w (controlSignals w) reg nzcv).valid = true ∧
      bitfieldMove (datasize w) reg w c = some ((execute w (controlSignals w) reg nzcv).bits.outcome (datasize w)) := by
  rcases hc with rfl | rfl
  · have hRd : Rd w ≠ 31 := hRegisters _ (by simp [registers])
    have hRn : Rn w ≠ 31 := hRegisters _ (by simp [registers])
    obtain ⟨masks, hMasks, hValid, hOutcome⟩ := bitfield_conforms reg nzcv hMatches hSignals hReserved hRd hRn
    refine ⟨hValid, ?_⟩
    rw [bitfieldMove, hMasks, hOutcome]
    rfl
  · have hRd : Rd w ≠ 31 := hRegisters _ (by simp [registers])
    obtain ⟨hValid, hOutcome⟩ := moveWide_conforms reg nzcv hMatches hSignals hRd
    exact ⟨hValid, congrArg some hOutcome.symm⟩

/-- `SBFX X0, X1, #4, #4`. -/
theorem bitfield_move_conforms_sbfx : (execute 0x93441C20#32 (controlSignals 0x93441C20#32) (fun _ => 0xF0) 0).valid = true ∧
    bitfieldMove (datasize 0x93441C20#32) (fun _ => 0xF0) 0x93441C20#32 .BitF =
      some ((execute 0x93441C20#32 (controlSignals 0x93441C20#32) (fun _ => 0xF0) 0).bits.outcome (datasize 0x93441C20#32)) :=
  bitfield_move_conforms (.inl rfl) (by decide) (by decide) (by decide) (by decide) (fun _ => 0xF0) 0

end KnockoutKraken.Armflex
