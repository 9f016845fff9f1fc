import Mathlib.Data.BitVec

/-!
# The signals of the decoder

Operation codes mean something only together with the type of the
instruction, and the same codes are used by several types.
-/

namespace KnockoutKraken.Arm

/-- The type of an instruction; `X` is no instruction at all. -/
inductive IType where
  | X | HINT | LogSR | LogI | CCImm | CCReg | CSel | ASImm | ASSR | ASER | MovI | DP1S | DP2S | DP3S | BitF
  | LSUReg | LSRegPo | LSReg | LSRegPr | LSUImm | LSPairPo | LSPair | LSPairPr
  | BImm | BCImm | TBImm | CBImm | BReg | PCRel
deriving DecidableEq

abbrev Op := BitVec 4

@[match_pattern] abbrev OP_X : Op := 0#4

@[match_pattern] abbrev OP_AND : Op := 0#4
@[match_pattern] abbrev OP_BIC : Op := 1#4
@[match_pattern] abbrev OP_ORR : Op := 2#4
@[match_pattern] abbrev OP_ORN : Op := 3#4
@[match_pattern] abbrev OP_EOR : Op := 4#4
@[match_pattern] abbrev OP_EON : Op := 5#4

@[match_pattern] abbrev OP_ADR : Op := 0#4
@[match_pattern] abbrev OP_ADRP : Op := 1#4

@[match_pattern] abbrev OP_ADD : Op := 0#4
@[match_pattern] abbrev OP_SUB : Op := 1#4

@[match_pattern] abbrev OP_B : Op := 0#4
@[match_pattern] abbrev OP_BL : Op := 1#4

@[match_pattern] abbrev OP_BCOND : Op := 0#4

@[match_pattern] abbrev OP_BR : Op := 0#4
@[match_pattern] abbrev OP_BLR : Op := 1#4
@[match_pattern] abbrev OP_RET : Op := 0#4

@[match_pattern] abbrev OP_TBZ : Op := 0#4
@[match_pattern] abbrev OP_TBNZ : Op := 1#4

@[match_pattern] abbrev OP_CBZ : Op := 0#4
@[match_pattern] abbrev OP_CBNZ : Op := 1#4

@[match_pattern] abbrev OP_MOVN : Op := 0#4
@[match_pattern] abbrev OP_MOVZ : Op := 1#4
@[match_pattern] abbrev OP_MOVK : Op := 2#4

@[match_pattern] abbrev OP_SBFM : Op := 0#4
@[match_pattern] abbrev OP_BFM : Op := 1#4
@[match_pattern] abbrev OP_UBFM : Op := 2#4

@[match_pattern] abbrev OP_CSEL : Op := 0#4
@[match_pattern] abbrev OP_CSINC : Op := 1#4
@[match_pattern] abbrev OP_CSINV : Op := 2#4
@[match_pattern] abbrev OP_CSNEG : Op := 3#4

@[match_pattern] abbrev OP_CCMN : Op := 0#4
@[match_pattern] abbrev OP_CCMP : Op := 1#4

@[match_pattern] abbrev OP_RBIT : Op := 0#4
@[match_pattern] abbrev OP_REV16 : Op := 1#4
@[match_pattern] abbrev OP_REV32 : Op := 2#4
@[match_pattern] abbrev OP_REV : Op := 3#4
@[match_pattern] abbrev OP_CLZ : Op := 4#4
@[match_pattern] abbrev OP_CLS : Op := 5#4

-- the size, the load and the sign of a memory operation
def SIZEB : Op := 0
def SIZEH : Op := 1
def SIZE32 : Op := 2
def SIZE64 : Op := 3
def isLoad : Op := 4
def isSigned : Op := 8

def OP_STRB : Op := SIZEB
def OP_STRH : Op := SIZEH
def OP_STR32 : Op := SIZE32
def OP_STR64 : Op := SIZE64
def OP_LDRB : Op := SIZEB + isLoad
def OP_LDRH : Op := SIZEH + isLoad
def OP_LDR32 : Op := SIZE32 + isLoad
def OP_LDR64 : Op := SIZE64 + isLoad
def OP_LDRSB : Op := SIZEB + isLoad + isSigned
def OP_LDRSH : Op := SIZEH + isLoad + isSigned
def OP_LDRSW : Op := SIZE32 + isLoad + isSigned
def OP_STURB : Op := SIZEB
def OP_STURH : Op := SIZEH
def OP_STUR32 : Op := SIZE32
def OP_STUR64 : Op := SIZE64
def OP_LDURB : Op := SIZEB + isLoad
def OP_LDURH : Op := SIZEH + isLoad
def OP_LDUR32 : Op := SIZE32 + isLoad
def OP_LDUR64 : Op := SIZE64 + isLoad
def OP_LDURSB : Op := SIZEB + isLoad + isSigned
def OP_LDURSH : Op := SIZEH + isLoad + isSigned
def OP_LDURSW : Op := SIZE32 + isLoad + isSigned
def OP_STP32 : Op := SIZE32
def OP_STP64 : Op := SIZE64
def OP_LDP32 : Op := SIZE32 + isLoad
def OP_LDP64 : Op := SIZE64 + isLoad
def OP_LDPSW : Op := SIZE64 + isLoad + isSigned

-- the shift types
@[match_pattern] abbrev LSL : BitVec 2 := 0#2
@[match_pattern] abbrev LSR : BitVec 2 := 1#2
@[match_pattern] abbrev ASR : BitVec 2 := 2#2
@[match_pattern] abbrev ROR : BitVec 2 := 3#2

end KnockoutKraken.Arm
