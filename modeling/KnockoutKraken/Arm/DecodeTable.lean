import KnockoutKraken.Arm.BitPatterns
import KnockoutKraken.Arm.DecodeLiterals

/-!
# The decode table

One row an instruction; an instruction that is another one with a fixed
register stands before it.
-/

namespace KnockoutKraken.Arm

open Library

structure ControlSignals where
  itype : IType
  op : Op
  rdEn : Bool
  shiftEn : Bool
  condEn : Bool
  nzcvEn : Bool
  is32bit : Bool
deriving DecidableEq

def decode_default : ControlSignals := ⟨.X, OP_X, false, false, false, false, false⟩

def decode_table : List (BitPat 32 × ControlSignals) := [
  -- PC-Rel
  (PCRel_ADR, ⟨.PCRel, OP_ADR, true, false, false, false, false⟩),
  (PCRel_ADRP, ⟨.PCRel, OP_ADRP, true, false, false, false, false⟩),
  -- Logical (shifted register)
  (LogSR_TST32, ⟨.LogSR, OP_AND, false, true, false, true, true⟩),
  (LogSR_AND32, ⟨.LogSR, OP_AND, true, true, false, false, true⟩),
  (LogSR_BIC32, ⟨.LogSR, OP_BIC, true, true, false, false, true⟩),
  (LogSR_ORR32, ⟨.LogSR, OP_ORR, true, true, false, false, true⟩),
  (LogSR_ORN32, ⟨.LogSR, OP_ORN, true, true, false, false, true⟩),
  (LogSR_EOR32, ⟨.LogSR, OP_EOR, true, true, false, false, true⟩),
  (LogSR_EON32, ⟨.LogSR, OP_EON, true, true, false, false, true⟩),
  (LogSR_ANDS32, ⟨.LogSR, OP_AND, true, true, false, true, true⟩),
  (LogSR_BICS32, ⟨.LogSR, OP_BIC, true, true, false, true, true⟩),
  (LogSR_TST, ⟨.LogSR, OP_AND, false, true, false, true, false⟩),
  (LogSR_AND, ⟨.LogSR, OP_AND, true, true, false, false, false⟩),
  (LogSR_BIC, ⟨.LogSR, OP_BIC, true, true, false, false, false⟩),
  (LogSR_ORR, ⟨.LogSR, OP_ORR, true, true, false, false, false⟩),
  (LogSR_ORN, ⟨.LogSR, OP_ORN, true, true, false, false, false⟩),
  (LogSR_EOR, ⟨.LogSR, OP_EOR, true, true, false, false, false⟩),
  (LogSR_EON, ⟨.LogSR, OP_EON, true, true, false, false, false⟩),
  (LogSR_ANDS, ⟨.LogSR, OP_AND, true, true, false, true, false⟩),
  (LogSR_BICS, ⟨.LogSR, OP_BIC, true, true, false, true, false⟩),
  -- Logical (immediate)
  (LogI_TST32, ⟨.LogI, OP_AND, false, false, false, true, true⟩),
  (LogI_AND32, ⟨.LogI, OP_AND, true, false, false, false, true⟩),
  (LogI_ORR32, ⟨.LogI, OP_ORR, true, false, false, false, true⟩),
  (LogI_EOR32, ⟨.LogI, OP_EOR, true, false, false, false, true⟩),
  (LogI_ANDS32, ⟨.LogI, OP_AND, true, false, false, true, true⟩),
  (LogI_TST, ⟨.LogI, OP_AND, false, false, false, true, false⟩),
  (LogI_AND, ⟨.LogI, OP_AND, true, false, false, false, false⟩),
  (LogI_ORR, ⟨.LogI, OP_ORR, true, false, false, false, false⟩),
  (LogI_EOR, ⟨.LogI, OP_EOR, true, false, false, false, false⟩),
  (LogI_ANDS, ⟨.LogI, OP_AND, true, false, false, true, false⟩),
  -- Move wide (immediate)
  (MovI_MOVN32, ⟨.MovI, OP_MOVN, true, false, false, false, true⟩),
  (MovI_MOVZ32, ⟨.MovI, OP_MOVZ, true, false, false, false, true⟩),
  (MovI_MOVK32, ⟨.MovI, OP_MOVK, true, false, false, false, true⟩),
  (MovI_MOVN, ⟨.MovI, OP_MOVN, true, false, false, false, false⟩),
  (MovI_MOVZ, ⟨.MovI, OP_MOVZ, true, false, false, false, false⟩),
  (MovI_MOVK, ⟨.MovI, OP_MOVK, true, false, false, false, false⟩),
  -- Bitfield
  (BitF_SBFM32, ⟨.BitF, OP_SBFM, true, true, false, false, true⟩),
  (BitF_BFM32, ⟨.BitF, OP_BFM, true, true, false, false, true⟩),
  (BitF_UBFM32, ⟨.BitF, OP_UBFM, true, true, false, false, true⟩),
  (BitF_SBFM, ⟨.BitF, OP_SBFM, true, true, false, false, false⟩),
  (BitF_BFM, ⟨.BitF, OP_BFM, true, true, false, false, false⟩),
  (BitF_UBFM, ⟨.BitF, OP_UBFM, true, true, false, false, false⟩),
  -- Conditional select
  (CSel_CSEL32, ⟨.CSel, OP_CSEL, true, false, true, false, true⟩),
  (CSel_CSINC32, ⟨.CSel, OP_CSINC, true, false, true, false, true⟩),
  (CSel_CSINV32, ⟨.CSel, OP_CSINV, true, false, true, false, true⟩),
  (CSel_CSNEG32, ⟨.CSel, OP_CSNEG, true, false, true, false, true⟩),
  (CSel_CSEL, ⟨.CSel, OP_CSEL, true, false, true, false, false⟩),
  (CSel_CSINC, ⟨.CSel, OP_CSINC, true, false, true, false, false⟩),
  (CSel_CSINV, ⟨.CSel, OP_CSINV, true, false, true, false, false⟩),
  (CSel_CSNEG, ⟨.CSel, OP_CSNEG, true, false, true, false, false⟩),
  -- Conditional compare (immediate)
  (CCImm_CCMN, ⟨.CCImm, OP_CCMN, false, false, true, true, false⟩),
  (CCImm_CCMP, ⟨.CCImm, OP_CCMP, false, false, true, true, false⟩),
  (CCImm_CCMP32, ⟨.CCImm, OP_CCMP, false, false, true, true, true⟩),
  -- Conditional compare (register)
  (CCReg_CCMN, ⟨.CCReg, OP_CCMN, false, false, true, true, false⟩),
  (CCReg_CCMP, ⟨.CCReg, OP_CCMP, false, false, true, true, false⟩),
  (CCReg_CCMP32, ⟨.CCReg, OP_CCMP, false, false, true, true, true⟩),
  -- Add/subtract (shifted register)
  (ASSR_CMP32, ⟨.ASSR, OP_SUB, false, true, false, true, true⟩),
  (ASSR_CMN32, ⟨.ASSR, OP_ADD, false, true, false, true, true⟩),
  (ASSR_ADD32, ⟨.ASSR, OP_ADD, true, true, false, false, true⟩),
  (ASSR_ADDS32, ⟨.ASSR, OP_ADD, true, true, false, true, true⟩),
  (ASSR_SUB32, ⟨.ASSR, OP_SUB, true, true, false, false, true⟩),
  (ASSR_SUBS32, ⟨.ASSR, OP_SUB, true, true, false, true, true⟩),
  (ASSR_CMP, ⟨.ASSR, OP_SUB, false, true, false, true, false⟩),
  (ASSR_CMN, ⟨.ASSR, OP_ADD, false, true, false, true, false⟩),
  (ASSR_ADD, ⟨.ASSR, OP_ADD, true, true, false, false, false⟩),
  (ASSR_ADDS, ⟨.ASSR, OP_ADD, true, true, false, true, false⟩),
  (ASSR_SUB, ⟨.ASSR, OP_SUB, true, true, false, false, false⟩),
  (ASSR_SUBS, ⟨.ASSR, OP_SUB, true, true, false, true, false⟩),
  -- Add/subtract (extended register)
  (ASER_CMP32, ⟨.ASER, OP_SUB, false, true, false, true, true⟩),
  (ASER_CMN32, ⟨.ASER, OP_ADD, false, true, false, true, true⟩),
  (ASER_ADD32, ⟨.ASER, OP_ADD, true, true, false, false, true⟩),
  (ASER_ADDS32, ⟨.ASER, OP_ADD, true, true, false, true, true⟩),
  (ASER_SUB32, ⟨.ASER, OP_SUB, true, true, false, false, true⟩),
  (ASER_SUBS32, ⟨.ASER, OP_SUB, true, true, false, true, true⟩),
  (ASER_CMP, ⟨.ASER, OP_SUB, false, true, false, true, false⟩),
  (ASER_CMN, ⟨.ASER, OP_ADD, false, true, false, true, false⟩),
  (ASER_ADD, ⟨.ASER, OP_ADD, true, true, false, false, false⟩),
  (ASER_ADDS, ⟨.ASER, OP_ADD, true, true, false, true, false⟩),
  (ASER_SUB, ⟨.ASER, OP_SUB, true, true, false, false, false⟩),
  (ASER_SUBS, ⟨.ASER, OP_SUB, true, true, false, true, false⟩),
  -- Add/subtract (immediate)
  (ASImm_CMP32, ⟨.ASImm, OP_SUB, false, true, false, true, true⟩),
  (ASImm_CMN32, ⟨.ASImm, OP_ADD, false, true, false, true, true⟩),
  (ASImm_ADD32, ⟨.ASImm, OP_ADD, true, true, false, false, true⟩),
  (ASImm_ADDS32, ⟨.ASImm, OP_ADD, true, true, false, true, true⟩),
  (ASImm_SUB32, ⟨.ASImm, OP_SUB, true, true, false, false, true⟩),
  (ASImm_SUBS32, ⟨.ASImm, OP_SUB, true, true, false, true, true⟩),
  (ASImm_CMP, ⟨.ASImm, OP_SUB, false, true, false, true, false⟩),
  (ASImm_CMN, ⟨.ASImm, OP_ADD, false, true, false, true, false⟩),
  (ASImm_ADD, ⟨.ASImm, OP_ADD, true, true, false, false, false⟩),
  (ASImm_ADDS, ⟨.ASImm, OP_ADD, true, true, false, true, false⟩),
  (ASImm_SUB, ⟨.ASImm, OP_SUB, true, true, false, false, false⟩),
  (ASImm_SUBS, ⟨.ASImm, OP_SUB, true, true, false, true, false⟩),
  -- Data-processing (1 source)
  (DP1S_RBIT32, ⟨.DP1S, OP_RBIT, true, false, false, false, true⟩),
  (DP1S_32REV16, ⟨.DP1S, OP_REV16, true, false, false, false, true⟩),
  (DP1S_32REV32, ⟨.DP1S, OP_REV32, true, false, false, false, true⟩),
  (DP1S_CLZ32, ⟨.DP1S, OP_CLZ, true, false, false, false, true⟩),
  (DP1S_CLS32, ⟨.DP1S, OP_CLS, true, false, false, false, true⟩),
  (DP1S_RBIT, ⟨.DP1S, OP_RBIT, true, false, false, false, false⟩),
  (DP1S_REV16, ⟨.DP1S, OP_REV16, true, false, false, false, false⟩),
  (DP1S_REV32, ⟨.DP1S, OP_REV32, true, false, false, false, false⟩),
  (DP1S_REV, ⟨.DP1S, OP_REV, true, false, false, false, false⟩),
  (DP1S_CLZ, ⟨.DP1S, OP_CLZ, true, false, false, false, false⟩),
  (DP1S_CLS, ⟨.DP1S, OP_CLS, true, false, false, false, false⟩),
  -- Data-processing (2 sources)
  (DP2S_LSLV32, ⟨.DP2S, LSL.setWidth 4, true, true, false, false, true⟩),
  (DP2S_LSRV32, ⟨.DP2S, LSR.setWidth 4, true, true, false, false, true⟩),
  (DP2S_ASRV32, ⟨.DP2S, ASR.setWidth 4, true, true, false, false, true⟩),
  (DP2S_RORV32, ⟨.DP2S, ROR.setWidth 4, true, true, false, false, true⟩),
  (DP2S_LSLV, ⟨.DP2S, LSL.setWidth 4, true, true, false, false, false⟩),
  (DP2S_LSRV, ⟨.DP2S, LSR.setWidth 4, true, true, false, false, false⟩),
  (DP2S_ASRV, ⟨.DP2S, ASR.setWidth 4, true, true, false, false, false⟩),
  (DP2S_RORV, ⟨.DP2S, ROR.setWidth 4, true, true, false, false, false⟩),
  -- Unconditional branch (immediate)
  (BImm_B, ⟨.BImm, OP_B, false, false, false, false, false⟩),
  (BImm_BL, ⟨.BImm, OP_BL, false, false, false, false, false⟩),
  -- Unconditional branch (register)
  (BReg_BR, ⟨.BReg, OP_BR, false, false, false, false, false⟩),
  (BReg_BLR, ⟨.BReg, OP_BLR, false, false, false, false, false⟩),
  (BReg_RET, ⟨.BReg, OP_RET, false, false, false, false, false⟩),
  -- Test and branch (immediate)
  (TBImm_TBZ32, ⟨.TBImm, OP_TBZ, false, false, false, false, true⟩),
  (TBImm_TBNZ32, ⟨.TBImm, OP_TBNZ, false, false, false, false, true⟩),
  (TBImm_TBZ, ⟨.TBImm, OP_TBZ, false, false, false, false, false⟩),
  (TBImm_TBNZ, ⟨.TBImm, OP_TBNZ, false, false, false, false, false⟩),
  -- Conditional branch (immediate)
  (BCond, ⟨.BCImm, OP_BCOND, false, false, true, false, false⟩),
  -- Compare and branch (immediate)
  (CBImm_CBZ32, ⟨.CBImm, OP_CBZ, false, false, false, false, true⟩),
  (CBImm_CBNZ32, ⟨.CBImm, OP_CBNZ, false, false, false, false, true⟩),
  (CBImm_CBZ, ⟨.CBImm, OP_CBZ, false, false, false, false, false⟩),
  (CBImm_CBNZ, ⟨.CBImm, OP_CBNZ, false, false, false, false, false⟩),
  -- Load/store pair register (post-indexed)
  (LSPairPo_STP32, ⟨.LSPairPo, OP_STP32, true, false, false, false, true⟩),
  (LSPairPo_STP64, ⟨.LSPairPo, OP_STP64, true, false, false, false, false⟩),
  (LSPairPo_LDP32, ⟨.LSPairPo, OP_LDP32, true, false, false, false, true⟩),
  (LSPairPo_LDP64, ⟨.LSPairPo, OP_LDP64, true, false, false, false, false⟩),
  (LSPairPo_LDPSW, ⟨.LSPairPo, OP_LDPSW, true, false, false, false, false⟩),
  -- Load/store pair register (signed offset)
  (LSPair_STP32, ⟨.LSPair, OP_STP32, true, false, false, false, true⟩),
  (LSPair_STP64, ⟨.LSPair, OP_STP64, true, false, false, false, false⟩),
  (LSPair_LDP32, ⟨.LSPair, OP_LDP32, true, false, false, false, true⟩),
  (LSPair_LDP64, ⟨.LSPair, OP_LDP64, true, false, false, false, false⟩),
  (LSPair_LDPSW, ⟨.LSPair, OP_LDPSW, true, false, false, false, false⟩),
  -- Load/store pair register (pre-indexed)
  (LSPairPr_STP32, ⟨.LSPairPr, OP_STP32, true, false, false, false, true⟩),
  (LSPairPr_STP64, ⟨.LSPairPr, OP_STP64, true, false, false, false, false⟩),
  (LSPairPr_LDP32, ⟨.LSPairPr, OP_LDP32, true, false, false, false, true⟩),
  (LSPairPr_LDP64, ⟨.LSPairPr, OP_LDP64, true, false, false, false, false⟩),
  (LSPairPr_LDPSW, ⟨.LSPairPr, OP_LDPSW, true, false, false, false, false⟩),
  -- Load/store register (register offset)
  (LSReg_STRB, ⟨.LSReg, OP_STRB, true, false, false, false, true⟩),
  (LSReg_STRH, ⟨.LSReg, OP_STRH, true, false, false, false, true⟩),
  (LSReg_STR32, ⟨.LSReg, OP_STR32, true, false, false, false, true⟩),
  (LSReg_STR64, ⟨.LSReg, OP_STR64, true, false, false, false, false⟩),
  (LSReg_LDRB, ⟨.LSReg, OP_LDRB, true, false, false, false, true⟩),
  (LSReg_LDRH, ⟨.LSReg, OP_LDRH, true, false, false, false, true⟩),
  (LSReg_LDR32, ⟨.LSReg, OP_LDR32, true, false, false, false, true⟩),
  (LSReg_LDR64, ⟨.LSReg, OP_LDR64, true, false, false, false, false⟩),
  -- Load/store register (unsigned immediate)
  (LSUImm_STRB, ⟨.LSUImm, OP_STRB, true, false, false, false, true⟩),
  (LSUImm_STRH, ⟨.LSUImm, OP_STRH, true, false, false, false, true⟩),
  (LSUImm_STR32, ⟨.LSUImm, OP_STR32, true, false, false, false, true⟩),
  (LSUImm_STR64, ⟨.LSUImm, OP_STR64, true, false, false, false, false⟩),
  (LSUImm_LDRB, ⟨.LSUImm, OP_LDRB, true, false, false, false, true⟩),
  (LSUImm_LDRH, ⟨.LSUImm, OP_LDRH, true, false, false, false, true⟩),
  (LSUImm_LDR32, ⟨.LSUImm, OP_LDR32, true, false, false, false, true⟩),
  (LSUImm_LDR64, ⟨.LSUImm, OP_LDR64, true, false, false, false, false⟩),
  (LSUImm_LDRSW, ⟨.LSUImm, OP_LDRSW, true, false, false, false, false⟩),
  (LSUImm_LDRSB64, ⟨.LSUImm, OP_LDRSB, true, false, false, false, false⟩),
  (LSUImm_LDRSB32, ⟨.LSUImm, OP_LDRSB, true, false, false, false, true⟩),
  (LSUImm_LDRSH64, ⟨.LSUImm, OP_LDRSH, true, false, false, false, false⟩),
  (LSUImm_LDRSH32, ⟨.LSUImm, OP_LDRSH, true, false, false, false, true⟩),
  -- Load/store register (unscaled immediate)
  (LSUReg_STURB, ⟨.LSUReg, OP_STURB, true, false, false, false, false⟩),
  (LSUReg_LDURB, ⟨.LSUReg, OP_LDURB, true, false, false, false, false⟩),
  (LSUReg_LDURSB, ⟨.LSUReg, OP_LDURSB, true, false, false, false, false⟩),
  (LSUReg_LDURSB32, ⟨.LSUReg, OP_LDURSB, true, false, false, false, true⟩),
  (LSUReg_STURH, ⟨.LSUReg, OP_STURH, true, false, false, false, false⟩),
  (LSUReg_LDURH, ⟨.LSUReg, OP_LDURH, true, false, false, false, false⟩),
  (LSUReg_LDURSH, ⟨.LSUReg, OP_LDURSH, true, false, false, false, false⟩),
  (LSUReg_LDURSH32, ⟨.LSUReg, OP_LDURSH, true, false, false, false, true⟩),
  (LSUReg_STUR32, ⟨.LSUReg, OP_STUR32, true, false, false, false, true⟩),
  (LSUReg_LDUR32, ⟨.LSUReg, OP_LDUR32, true, false, false, false, true⟩),
  (LSUReg_LDURSW, ⟨.LSUReg, OP_LDURSW, true, false, false, false, false⟩),
  (LSUReg_STUR, ⟨.LSUReg, OP_STUR64, true, false, false, false, false⟩),
  (LSUReg_LDUR, ⟨.LSUReg, OP_LDUR64, true, false, false, false, false⟩),
  -- Load/store register (post-indexed)
  (LSRegPo_STRB, ⟨.LSRegPo, OP_STRB, true, false, false, false, false⟩),
  (LSRegPo_LDRB, ⟨.LSRegPo, OP_LDRB, true, false, false, false, false⟩),
  (LSRegPo_LDRSB, ⟨.LSRegPo, OP_LDRSB, true, false, false, false, false⟩),
  (LSRegPo_LDRSB32, ⟨.LSRegPo, OP_LDRSB, true, false, false, false, true⟩),
  (LSRegPo_STRH, ⟨.LSRegPo, OP_STRH, true, false, false, false, false⟩),
  (LSRegPo_LDRH, ⟨.LSRegPo, OP_LDRH, true, false, false, false, false⟩),
  (LSRegPo_LDRSH, ⟨.LSRegPo, OP_LDRSH, true, false, false, false, false⟩),
  (LSRegPo_LDRSH32, ⟨.LSRegPo, OP_LDRSH, true, false, false, false, true⟩),
  (LSRegPo_STR32, ⟨.LSRegPo, OP_STR32, true, false, false, false, true⟩),
  (LSRegPo_LDR32, ⟨.LSRegPo, OP_LDR32, true, false, false, false, true⟩),
  (LSRegPo_LDRSW, ⟨.LSRegPo, OP_LDRSW, true, false, false, false, false⟩),
  (LSRegPo_STR, ⟨.LSRegPo, OP_STR64, true, false, false, false, false⟩),
  (LSRegPo_LDR, ⟨.LSRegPo, OP_LDR64, true, false, false, false, false⟩),
  -- Load/store register (pre-indexed)
  (LSRegPr_STRB, ⟨.LSRegPr, OP_STRB, true, false, false, false, false⟩),
  (LSRegPr_LDRB, ⟨.LSRegPr, OP_LDRB, true, false, false, false, false⟩),
  (LSRegPr_LDRSB, ⟨.LSRegPr, OP_LDRSB, true, false, false, false, false⟩),
  (LSRegPr_LDRSB32, ⟨.LSRegPr, OP_LDRSB, true, false, false, false, true⟩),
  (LSRegPr_STRH, ⟨.LSRegPr, OP_STRH, true, false, false, false, false⟩),
  (LSRegPr_LDRH, ⟨.LSRegPr, OP_LDRH, true, false, false, false, false⟩),
  (LSRegPr_LDRSH, ⟨.LSRegPr, OP_LDRSH, true, false, false, false, false⟩),
  (LSRegPr_LDRSH32, ⟨.LSRegPr, OP_LDRSH, true, false, false, false, true⟩),
  (LSRegPr_STR32, ⟨.LSRegPr, OP_STR32, true, false, false, false, true⟩),
  (LSRegPr_LDR32, ⟨.LSRegPr, OP_LDR32, true, false, false, false, true⟩),
  (LSRegPr_LDRSW, ⟨.LSRegPr, OP_LDRSW, true, false, false, false, false⟩),
  (LSRegPr_STR, ⟨.LSRegPr, OP_STR64, true, false, false, false, false⟩),
  (LSRegPr_LDR, ⟨.LSRegPr, OP_LDR64, true, false, false, false, false⟩),
  -- Hint
  (HINT_NOP00, ⟨.HINT, OP_X, false, false, false, false, false⟩),
  (HINT_NOP01, ⟨.HINT, OP_X, false, false, false, false, false⟩)]

def controlSignals (inst : BitVec 32) : ControlSignals := BitPat.lookup decode_default decode_table inst

end KnockoutKraken.Arm
