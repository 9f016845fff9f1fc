import KnockoutKraken.Library.BitPat

/-!
# The bit patterns of the instructions

A pattern is written with its 32 digits, where 2 stands for an open bit.
-/

namespace KnockoutKraken.Arm

open Library

-- PC-Rel
def PCRel_ADR : BitPat 32 := .ofDigits 32 02210000222222222222222222222222
def PCRel_ADRP : BitPat 32 := .ofDigits 32 12210000222222222222222222222222

-- Logical (shifted register)
def LogSR_TST32 : BitPat 32 := .ofDigits 32 01101010220222222222222222211111
def LogSR_AND32 : BitPat 32 := .ofDigits 32 00001010220222222222222222222222
def LogSR_BIC32 : BitPat 32 := .ofDigits 32 00001010221222222222222222222222
def LogSR_ORR32 : BitPat 32 := .ofDigits 32 00101010220222222222222222222222
def LogSR_ORN32 : BitPat 32 := .ofDigits 32 00101010221222222222222222222222
def LogSR_EOR32 : BitPat 32 := .ofDigits 32 01001010220222222222222222222222
def LogSR_EON32 : BitPat 32 := .ofDigits 32 01001010221222222222222222222222
def LogSR_ANDS32 : BitPat 32 := .ofDigits 32 01101010220222222222222222222222
def LogSR_BICS32 : BitPat 32 := .ofDigits 32 01101010221222222222222222222222
def LogSR_TST : BitPat 32 := .ofDigits 32 11101010220222222222222222211111
def LogSR_AND : BitPat 32 := .ofDigits 32 10001010220222222222222222222222
def LogSR_BIC : BitPat 32 := .ofDigits 32 10001010221222222222222222222222
def LogSR_ORR : BitPat 32 := .ofDigits 32 10101010220222222222222222222222
def LogSR_ORN : BitPat 32 := .ofDigits 32 10101010221222222222222222222222
def LogSR_EOR : BitPat 32 := .ofDigits 32 11001010220222222222222222222222
def LogSR_EON : BitPat 32 := .ofDigits 32 11001010221222222222222222222222
def LogSR_ANDS : BitPat 32 := .ofDigits 32 11101010220222222222222222222222
def LogSR_BICS : BitPat 32 := .ofDigits 32 11101010221222222222222222222222

-- Logical (immediate)
def LogI_TST32 : BitPat 32 := .ofDigits 32 01110010002222222222222222211111
def LogI_AND32 : BitPat 32 := .ofDigits 32 00010010002222222222222222222222
def LogI_ORR32 : BitPat 32 := .ofDigits 32 00110010002222222222222222222222
def LogI_EOR32 : BitPat 32 := .ofDigits 32 01010010002222222222222222222222
def LogI_ANDS32 : BitPat 32 := .ofDigits 32 01110010002222222222222222222222
def LogI_TST : BitPat 32 := .ofDigits 32 11110010022222222222222222211111
def LogI_AND : BitPat 32 := .ofDigits 32 10010010022222222222222222222222
def LogI_ORR : BitPat 32 := .ofDigits 32 10110010022222222222222222222222
def LogI_EOR : BitPat 32 := .ofDigits 32 11010010022222222222222222222222
def LogI_ANDS : BitPat 32 := .ofDigits 32 11110010022222222222222222222222

-- Move wide (immediate)
def MovI_MOVN32 : BitPat 32 := .ofDigits 32 00010010102222222222222222222222
def MovI_MOVZ32 : BitPat 32 := .ofDigits 32 01010010102222222222222222222222
def MovI_MOVK32 : BitPat 32 := .ofDigits 32 01110010102222222222222222222222
def MovI_MOVN : BitPat 32 := .ofDigits 32 10010010122222222222222222222222
def MovI_MOVZ : BitPat 32 := .ofDigits 32 11010010122222222222222222222222
def MovI_MOVK : BitPat 32 := .ofDigits 32 11110010122222222222222222222222

-- Bitfield
def BitF_SBFM32 : BitPat 32 := .ofDigits 32 00010011002222222222222222222222
def BitF_BFM32 : BitPat 32 := .ofDigits 32 00110011002222222222222222222222
def BitF_UBFM32 : BitPat 32 := .ofDigits 32 01010011002222222222222222222222
def BitF_SBFM : BitPat 32 := .ofDigits 32 10010011012222222222222222222222
def BitF_BFM : BitPat 32 := .ofDigits 32 10110011012222222222222222222222
def BitF_UBFM : BitPat 32 := .ofDigits 32 11010011012222222222222222222222

-- Conditional select
def CSel_CSEL32 : BitPat 32 := .ofDigits 32 00011010100222222222002222222222
def CSel_CSINC32 : BitPat 32 := .ofDigits 32 00011010100222222222012222222222
def CSel_CSINV32 : BitPat 32 := .ofDigits 32 01011010100222222222002222222222
def CSel_CSNEG32 : BitPat 32 := .ofDigits 32 01011010100222222222012222222222
def CSel_CSEL : BitPat 32 := .ofDigits 32 10011010100222222222002222222222
def CSel_CSINC : BitPat 32 := .ofDigits 32 10011010100222222222012222222222
def CSel_CSINV : BitPat 32 := .ofDigits 32 11011010100222222222002222222222
def CSel_CSNEG : BitPat 32 := .ofDigits 32 11011010100222222222012222222222

-- Conditional compare (immediate)
def CCImm_CCMN : BitPat 32 := .ofDigits 32 10111010010222222222102222202222
def CCImm_CCMP : BitPat 32 := .ofDigits 32 11111010010222222222102222202222
def CCImm_CCMP32 : BitPat 32 := .ofDigits 32 01111010010222222222102222202222

-- Conditional compare (register)
def CCReg_CCMN : BitPat 32 := .ofDigits 32 10111010010222222222002222202222
def CCReg_CCMP : BitPat 32 := .ofDigits 32 11111010010222222222002222202222
def CCReg_CCMP32 : BitPat 32 := .ofDigits 32 01111010010222222222002222202222

-- Add/subtract (shifted register)
def ASSR_CMP32 : BitPat 32 := .ofDigits 32 01101011220222222222222222211111
def ASSR_CMN32 : BitPat 32 := .ofDigits 32 00101011220222222222222222211111
def ASSR_ADD32 : BitPat 32 := .ofDigits 32 00001011220222222222222222222222
def ASSR_ADDS32 : BitPat 32 := .ofDigits 32 00101011220222222222222222222222
def ASSR_SUB32 : BitPat 32 := .ofDigits 32 01001011220222222222222222222222
def ASSR_SUBS32 : BitPat 32 := .ofDigits 32 01101011220222222222222222222222
def ASSR_CMP : BitPat 32 := .ofDigits 32 11101011220222222222222222211111
def ASSR_CMN : BitPat 32 := .ofDigits 32 10101011220222222222222222211111
def ASSR_ADD : BitPat 32 := .ofDigits 32 10001011220222222222222222222222
def ASSR_ADDS : BitPat 32 := .ofDigits 32 10101011220222222222222222222222
def ASSR_SUB : BitPat 32 := .ofDigits 32 11001011220222222222222222222222
def ASSR_SUBS : BitPat 32 := .ofDigits 32 11101011220222222222222222222222

-- Add/subtract (extended register)
def ASER_CMP32 : BitPat 32 := .ofDigits 32 01101011001222222222222222211111
def ASER_CMN32 : BitPat 32 := .ofDigits 32 00101011001222222222222222211111
def ASER_ADD32 : BitPat 32 := .ofDigits 32 00001011001222222222222222222222
def ASER_ADDS32 : BitPat 32 := .ofDigits 32 00101011001222222222222222222222
def ASER_SUB32 : BitPat 32 := .ofDigits 32 01001011001222222222222222222222
def ASER_SUBS32 : BitPat 32 := .ofDigits 32 01101011001222222222222222222222
def ASER_CMP : BitPat 32 := .ofDigits 32 11101011001222222222222222211111
def ASER_CMN : BitPat 32 := .ofDigits 32 10101011001222222222222222211111
def ASER_ADD : BitPat 32 := .ofDigits 32 10001011001222222222222222222222
def ASER_ADDS : BitPat 32 := .ofDigits 32 10101011001222222222222222222222
def ASER_SUB : BitPat 32 := .ofDigits 32 11001011001222222222222222222222
def ASER_SUBS : BitPat 32 := .ofDigits 32 11101011001222222222222222222222

-- Add/subtract (immediate)
def ASImm_CMP32 : BitPat 32 := .ofDigits 32 01110001022222222222222222211111
def ASImm_CMN32 : BitPat 32 := .ofDigits 32 00110001022222222222222222211111
def ASImm_ADD32 : BitPat 32 := .ofDigits 32 00010001022222222222222222222222
def ASImm_ADDS32 : BitPat 32 := .ofDigits 32 00110001022222222222222222222222
def ASImm_SUB32 : BitPat 32 := .ofDigits 32 01010001022222222222222222222222
def ASImm_SUBS32 : BitPat 32 := .ofDigits 32 01110001022222222222222222222222
def ASImm_CMP : BitPat 32 := .ofDigits 32 11110001022222222222222222211111
def ASImm_CMN : BitPat 32 := .ofDigits 32 10110001022222222222222222211111
def ASImm_ADD : BitPat 32 := .ofDigits 32 10010001022222222222222222222222
def ASImm_ADDS : BitPat 32 := .ofDigits 32 10110001022222222222222222222222
def ASImm_SUB : BitPat 32 := .ofDigits 32 11010001022222222222222222222222
def ASImm_SUBS : BitPat 32 := .ofDigits 32 11110001022222222222222222222222

-- Data-processing (1 source)
def DP1S_RBIT32 : BitPat 32 := .ofDigits 32 01011010110000000000002222222222
def DP1S_32REV16 : BitPat 32 := .ofDigits 32 01011010110000000000012222222222
def DP1S_32REV32 : BitPat 32 := .ofDigits 32 01011010110000000000102222222222
def DP1S_CLZ32 : BitPat 32 := .ofDigits 32 01011010110000000001002222222222
def DP1S_CLS32 : BitPat 32 := .ofDigits 32 01011010110000000001012222222222
def DP1S_RBIT : BitPat 32 := .ofDigits 32 11011010110000000000002222222222
def DP1S_REV16 : BitPat 32 := .ofDigits 32 11011010110000000000012222222222
def DP1S_REV32 : BitPat 32 := .ofDigits 32 11011010110000000000102222222222
def DP1S_REV : BitPat 32 := .ofDigits 32 11011010110000000000112222222222
def DP1S_CLZ : BitPat 32 := .ofDigits 32 11011010110000000001002222222222
def DP1S_CLS : BitPat 32 := .ofDigits 32 11011010110000000001012222222222

-- Data-processing (2 sources)
def DP2S_LSLV32 : BitPat 32 := .ofDigits 32 00011010110222220010002222222222
def DP2S_LSRV32 : BitPat 32 := .ofDigits 32 00011010110222220010012222222222
def DP2S_ASRV32 : BitPat 32 := .ofDigits 32 00011010110222220010102222222222
def DP2S_RORV32 : BitPat 32 := .ofDigits 32 00011010110222220010112222222222
def DP2S_LSLV : BitPat 32 := .ofDigits 32 10011010110222220010002222222222
def DP2S_LSRV : BitPat 32 := .ofDigits 32 10011010110222220010012222222222
def DP2S_ASRV : BitPat 32 := .ofDigits 32 10011010110222220010102222222222
def DP2S_RORV : BitPat 32 := .ofDigits 32 10011010110222220010112222222222

-- Unconditional branch (immediate)
def BImm_B : BitPat 32 := .ofDigits 32 00010122222222222222222222222222
def BImm_BL : BitPat 32 := .ofDigits 32 10010122222222222222222222222222

-- Unconditional branch (register)
def BReg_BR : BitPat 32 := .ofDigits 32 11010110000111110000002222200000
def BReg_BLR : BitPat 32 := .ofDigits 32 11010110001111110000002222200000
def BReg_RET : BitPat 32 := .ofDigits 32 11010110010111110000002222200000

-- Test and branch (immediate)
def TBImm_TBZ32 : BitPat 32 := .ofDigits 32 00110110222222222222222222222222
def TBImm_TBNZ32 : BitPat 32 := .ofDigits 32 00110111222222222222222222222222
def TBImm_TBZ : BitPat 32 := .ofDigits 32 10110110222222222222222222222222
def TBImm_TBNZ : BitPat 32 := .ofDigits 32 10110111222222222222222222222222

-- Conditional branch (immediate)
def BCond : BitPat 32 := .ofDigits 32 01010100222222222222222222202222

-- Compare and branch (immediate)
def CBImm_CBZ32 : BitPat 32 := .ofDigits 32 00110100222222222222222222222222
def CBImm_CBNZ32 : BitPat 32 := .ofDigits 32 00110101222222222222222222222222
def CBImm_CBZ : BitPat 32 := .ofDigits 32 10110100222222222222222222222222
def CBImm_CBNZ : BitPat 32 := .ofDigits 32 10110101222222222222222222222222

-- Load/store pair register (post-indexed)
def LSPairPo_STP32 : BitPat 32 := .ofDigits 32 00101000102222222222222222222222
def LSPairPo_STP64 : BitPat 32 := .ofDigits 32 10101000102222222222222222222222
def LSPairPo_LDP32 : BitPat 32 := .ofDigits 32 00101000112222222222222222222222
def LSPairPo_LDP64 : BitPat 32 := .ofDigits 32 10101000112222222222222222222222
def LSPairPo_LDPSW : BitPat 32 := .ofDigits 32 01101000112222222222222222222222

-- Load/store pair register (signed offset)
def LSPair_STP32 : BitPat 32 := .ofDigits 32 00101001002222222222222222222222
def LSPair_STP64 : BitPat 32 := .ofDigits 32 10101001002222222222222222222222
def LSPair_LDP32 : BitPat 32 := .ofDigits 32 00101001012222222222222222222222
def LSPair_LDP64 : BitPat 32 := .ofDigits 32 10101001012222222222222222222222
def LSPair_LDPSW : BitPat 32 := .ofDigits 32 01101001012222222222222222222222

-- Load/store pair register (pre-indexed)
def LSPairPr_STP32 : BitPat 32 := .ofDigits 32 00101001102222222222222222222222
def LSPairPr_STP64 : BitPat 32 := .ofDigits 32 10101001102222222222222222222222
def LSPairPr_LDP32 : BitPat 32 := .ofDigits 32 00101001112222222222222222222222
def LSPairPr_LDP64 : BitPat 32 := .ofDigits 32 10101001112222222222222222222222
def LSPairPr_LDPSW : BitPat 32 := .ofDigits 32 01101001112222222222222222222222

-- Load/store register (register offset)
def LSReg_STRB : BitPat 32 := .ofDigits 32 00111000001222222122102222222222
def LSReg_STRH : BitPat 32 := .ofDigits 32 01111000001222222122102222222222
def LSReg_STR32 : BitPat 32 := .ofDigits 32 10111000001222222122102222222222
def LSReg_STR64 : BitPat 32 := .ofDigits 32 11111000001222222122102222222222
def LSReg_LDRB : BitPat 32 := .ofDigits 32 00111000011222222122102222222222
def LSReg_LDRH : BitPat 32 := .ofDigits 32 01111000011222222122102222222222
def LSReg_LDR32 : BitPat 32 := .ofDigits 32 10111000011222222122102222222222
def LSReg_LDR64 : BitPat 32 := .ofDigits 32 11111000011222222122102222222222

-- Load/store register (unsigned immediate)
def LSUImm_STRB : BitPat 32 := .ofDigits 32 00111001002222222222222222222222
def LSUImm_STRH : BitPat 32 := .ofDigits 32 01111001002222222222222222222222
def LSUImm_STR32 : BitPat 32 := .ofDigits 32 10111001002222222222222222222222
def LSUImm_STR64 : BitPat 32 := .ofDigits 32 11111001002222222222222222222222
def LSUImm_LDRB : BitPat 32 := .ofDigits 32 00111001012222222222222222222222
def LSUImm_LDRH : BitPat 32 := .ofDigits 32 01111001012222222222222222222222
def LSUImm_LDR32 : BitPat 32 := .ofDigits 32 10111001012222222222222222222222
def LSUImm_LDR64 : BitPat 32 := .ofDigits 32 11111001012222222222222222222222
def LSUImm_LDRSW : BitPat 32 := .ofDigits 32 10111001102222222222222222222222
def LSUImm_LDRSB64 : BitPat 32 := .ofDigits 32 00111001102222222222222222222222
def LSUImm_LDRSB32 : BitPat 32 := .ofDigits 32 00111001112222222222222222222222
def LSUImm_LDRSH64 : BitPat 32 := .ofDigits 32 01111001102222222222222222222222
def LSUImm_LDRSH32 : BitPat 32 := .ofDigits 32 01111001112222222222222222222222

-- Load/store register (unscaled immediate)
def LSUReg_STURB : BitPat 32 := .ofDigits 32 00111000000222222222002222222222
def LSUReg_LDURB : BitPat 32 := .ofDigits 32 00111000010222222222002222222222
def LSUReg_LDURSB : BitPat 32 := .ofDigits 32 00111000100222222222002222222222
def LSUReg_LDURSB32 : BitPat 32 := .ofDigits 32 00111000110222222222002222222222
def LSUReg_STURH : BitPat 32 := .ofDigits 32 01111000000222222222002222222222
def LSUReg_LDURH : BitPat 32 := .ofDigits 32 01111000010222222222002222222222
def LSUReg_LDURSH : BitPat 32 := .ofDigits 32 01111000100222222222002222222222
def LSUReg_LDURSH32 : BitPat 32 := .ofDigits 32 01111000110222222222002222222222
def LSUReg_STUR32 : BitPat 32 := .ofDigits 32 10111000000222222222002222222222
def LSUReg_LDUR32 : BitPat 32 := .ofDigits 32 10111000010222222222002222222222
def LSUReg_LDURSW : BitPat 32 := .ofDigits 32 10111000100222222222002222222222
def LSUReg_STUR : BitPat 32 := .ofDigits 32 11111000000222222222002222222222
def LSUReg_LDUR : BitPat 32 := .ofDigits 32 11111000010222222222002222222222

-- Load/store register (post-indexed)
def LSRegPo_STRB : BitPat 32 := .ofDigits 32 00111000000222222222012222222222
def LSRegPo_LDRB : BitPat 32 := .ofDigits 32 00111000010222222222012222222222
def LSRegPo_LDRSB : BitPat 32 := .ofDigits 32 00111000100222222222012222222222
def LSRegPo_LDRSB32 : BitPat 32 := .ofDigits 32 00111000110222222222012222222222
def LSRegPo_STRH : BitPat 32 := .ofDigits 32 01111000000222222222012222222222
def LSRegPo_LDRH : BitPat 32 := .ofDigits 32 01111000010222222222012222222222
def LSRegPo_LDRSH : BitPat 32 := .ofDigits 32 01111000100222222222012222222222
def LSRegPo_LDRSH32 : BitPat 32 := .ofDigits 32 01111000110222222222012222222222
def LSRegPo_STR32 : BitPat 32 := .ofDigits 32 10111000000222222222012222222222
def LSRegPo_LDR32 : BitPat 32 := .ofDigits 32 10111000010222222222012222222222
def LSRegPo_LDRSW : BitPat 32 := .ofDigits 32 10111000100222222222012222222222
def LSRegPo_STR : BitPat 32 := .ofDigits 32 11111000000222222222012222222222
def LSRegPo_LDR : BitPat 32 := .ofDigits 32 11111000010222222222012222222222

-- Load/store register (pre-indexed)
def LSRegPr_STRB : BitPat 32 := .ofDigits 32 00111000000222222222112222222222
def LSRegPr_LDRB : BitPat 32 := .ofDigits 32 00111000010222222222112222222222
def LSRegPr_LDRSB : BitPat 32 := .ofDigits 32 00111000100222222222112222222222
def LSRegPr_LDRSB32 : BitPat 32 := .ofDigits 32 00111000110222222222112222222222
def LSRegPr_STRH : BitPat 32 := .ofDigits 32 01111000000222222222112222222222
def LSRegPr_LDRH : BitPat 32 := .ofDigits 32 01111000010222222222112222222222
def LSRegPr_LDRSH : BitPat 32 := .ofDigits 32 01111000100222222222112222222222
def LSRegPr_LDRSH32 : BitPat 32 := .ofDigits 32 01111000110222222222112222222222
def LSRegPr_STR32 : BitPat 32 := .ofDigits 32 10111000000222222222112222222222
def LSRegPr_LDR32 : BitPat 32 := .ofDigits 32 10111000010222222222112222222222
def LSRegPr_LDRSW : BitPat 32 := .ofDigits 32 10111000100222222222112222222222
def LSRegPr_STR : BitPat 32 := .ofDigits 32 11111000000222222222112222222222
def LSRegPr_LDR : BitPat 32 := .ofDigits 32 11111000010222222222112222222222

-- Hint
def HINT_NOP00 : BitPat 32 := .ofDigits 32 11010101000000110010000000011111
def HINT_NOP01 : BitPat 32 := .ofDigits 32 11010101000000110010012222211111

end KnockoutKraken.Arm
