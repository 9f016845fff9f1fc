import KnockoutKraken.Library.Machine
import KnockoutKraken.Library.Packing
import KnockoutKraken.Library.Ring
import KnockoutKraken.Util.Bram
import Mathlib.Data.Nat.Size

/-!
# The trace dump

Trace words are packed into blocks in a register, the blocks go through a
ring of rows of a block memory, and bursts of them are written to a window
of the memory, again and again from its start. The row is written in the
cycle after its block is complete, from the register, and a block that
finds the ring full waits in the register. The bursts to be written are
counted by a register that the packing side counts up and the writing side
counts down; when both do so in one cycle the second one wins.
-/

namespace KnockoutKraken.Instrumentation

open Library Util

/-- The parameters, with what the module and its memory assert of them: a block is of whole
words, the memory has `2 ^ bramW` rows, and these are whole bursts. -/
structure TraceDumpParams where
  addrW : Nat
  traceW : Nat
  wordsPerBlock : Nat
  bramW : Nat
  windowSize : Nat
  burstSize : Nat
  wordsPerBlock_pos : 0 < wordsPerBlock
  bramW_pos : 0 < bramW
  burstSize_dvd : burstSize ∣ 2 ^ bramW

namespace TraceDumpParams

variable (p : TraceDumpParams)

abbrev dataW : Nat := p.wordsPerBlock * p.traceW

abbrev bramSize : Nat := 2 ^ p.bramW

/-- The memory has columns of a byte. -/
abbrev rowW : Nat := p.dataW / 8 * 8

theorem burstSize_pos : 0 < p.burstSize := Nat.pos_of_dvd_of_pos p.burstSize_dvd (Nat.two_pow_pos p.bramW)

theorem two_le_bramSize : 2 ≤ p.bramSize := Nat.pow_le_pow_right Nat.two_pos p.bramW_pos

end TraceDumpParams

inductive BufferState
  | bBuffering | bFull
deriving DecidableEq

inductive Step
  | sIdle | sPacking | sPrepare | sWrite
deriving DecidableEq

/-- The counters of words and of blocks in a burst are wide enough for their ranges. All
columns of the memory are enabled together. -/
structure TraceDump (p : TraceDumpParams) where
  bufferState : BufferState
  step : Step
  blockBuffer : Fin p.wordsPerBlock → BitVec p.traceW
  currWord : Nat
  writesPending : BitVec p.bramW
  bram : BRAMTDP (BitVec p.bramW) Unit (BitVec p.rowW)
  bramAddrA : BitVec p.bramW
  bramWeA : Bool
  currBlockIn : Nat
  currBlockOut : Nat
  bramInAddr : BitVec p.bramW
  bramOutAddr : BitVec p.bramW
  bramFull : Bool
  initAddrReg : BitVec p.addrW
  currAddr : BitVec p.addrW

structure WriteRequest (p : TraceDumpParams) where
  addr : BitVec p.addrW
  burst : Nat
deriving DecidableEq

namespace TraceDump

variable {p : TraceDumpParams}

structure Input (p : TraceDumpParams) where
  initAddr : Option (BitVec p.addrW)
  traceData : Option (BitVec p.traceW)
  reqReady : Bool
  dataReady : Bool

structure Output (p : TraceDumpParams) where
  initAddr : Option (BitVec p.addrW)
  traceData : Option (BitVec p.traceW)
  block : Option (BitVec p.dataW)
  req : Option (WriteRequest p)
  data : Option (BitVec p.dataW)

/-- After reset. The registers of the write port of the memory have no reset value. -/
def atReset (bram : BRAMTDP (BitVec p.bramW) Unit (BitVec p.rowW)) (bramAddrA : BitVec p.bramW) (bramWeA : Bool) :
    TraceDump p where
  bufferState := .bBuffering
  step := .sIdle
  blockBuffer := fun _ => 0
  currWord := 0
  writesPending := 0
  bram := bram
  bramAddrA := bramAddrA
  bramWeA := bramWeA
  currBlockIn := 0
  currBlockOut := 0
  bramInAddr := 0
  bramOutAddr := 0
  bramFull := false
  initAddrReg := 0
  currAddr := 0

def asBlock (words : Fin p.wordsPerBlock → BitVec p.traceW) : BitVec p.dataW := packVec p.wordsPerBlock words

variable (s : TraceDump p) (i : Input p)

def portA : BRAMPort (BitVec p.bramW) Unit (BitVec p.rowW) where
  en := true
  we _ := s.bramWeA
  addr := s.bramAddrA
  di _ := (asBlock s.blockBuffer).setWidth p.rowW

def portB : BRAMPort (BitVec p.bramW) Unit (BitVec p.rowW) := .read s.bramOutAddr fun _ => 0

def initAddrFire : Option (BitVec p.addrW) := if s.step = .sIdle then i.initAddr else none

def traceDataReady : Bool := s.bufferState == .bBuffering && s.step != .sIdle

def traceDataFire : Option (BitVec p.traceW) := if s.traceDataReady then i.traceData else none

def blockDone : Bool := (s.traceDataFire i).isSome && s.currWord == p.wordsPerBlock - 1

def burstDone : Bool := s.blockDone i && s.currBlockIn == p.burstSize - 1

def take : Bool := s.step == .sPacking && s.writesPending != 0

def reqFire : Bool := s.step == .sPrepare && i.reqReady

def dataFire : Bool := s.step == .sWrite && i.dataReady

def lastBlock : Bool := s.currBlockOut == p.burstSize - 1

def advance : Bool :=
  match s.bufferState with
  | .bBuffering => s.blockDone i && !s.bramFull
  | .bFull => !s.bramFull

def nextBlockBuffer : Fin p.wordsPerBlock → BitVec p.traceW :=
  match s.traceDataFire i with
  | some word => fun k => if k.val = s.currWord then word else s.blockBuffer k
  | none => s.blockBuffer

def nextBufferState : BufferState :=
  match s.bufferState with
  | .bBuffering => if s.blockDone i && s.bramFull then .bFull else .bBuffering
  | .bFull => if s.bramFull then .bFull else .bBuffering

def nextStep : Step :=
  match s.step with
  | .sIdle => if i.initAddr.isSome then .sPacking else .sIdle
  | .sPacking => if s.take then .sPrepare else .sPacking
  | .sPrepare => if i.reqReady then .sWrite else .sPrepare
  | .sWrite => if i.dataReady then (if s.lastBlock then .sPacking else .sPrepare) else .sWrite

/-- The comparison is as wide as its wider operand. -/
def windowEnd : Bool :=
  s.currAddr.toNat == (s.initAddrReg.toNat + (p.windowSize - p.burstSize)) % 2 ^ max p.addrW (p.windowSize - p.burstSize).size

def nextCurrAddr : BitVec p.addrW :=
  match s.initAddrFire i with
  | some addr => addr
  | none =>
    if s.dataFire i && s.lastBlock then
      if s.windowEnd then s.initAddrReg else s.currAddr + BitVec.ofNat p.addrW p.burstSize
    else s.currAddr

def next : TraceDump p where
  bufferState := s.nextBufferState i
  step := s.nextStep i
  blockBuffer := s.nextBlockBuffer i
  currWord :=
    if (s.traceDataFire i).isSome then (if s.currWord == p.wordsPerBlock - 1 then 0 else s.currWord + 1) else s.currWord
  -- the last assignment wins: a burst that is complete in the cycle in which one is taken is not counted
  writesPending :=
    if s.take then s.writesPending - 1 else if s.burstDone i then s.writesPending + 1 else s.writesPending
  bram := s.bram.next s.portA s.portB
  bramAddrA := s.bramInAddr
  bramWeA := !s.bramFull
  currBlockIn :=
    if s.blockDone i then (if s.currBlockIn == p.burstSize - 1 then 0 else s.currBlockIn + 1) else s.currBlockIn
  currBlockOut := if s.dataFire i then (if s.lastBlock then 0 else s.currBlockOut + 1) else s.currBlockOut
  bramInAddr := if s.advance i then s.bramInAddr + 1 else s.bramInAddr
  bramOutAddr := if s.dataFire i then s.bramOutAddr + 1 else s.bramOutAddr
  bramFull :=
    if s.dataFire i then false
    else if s.advance i && s.bramInAddr + 1 == s.bramOutAddr then true else s.bramFull
  initAddrReg := (s.initAddrFire i).getD s.initAddrReg
  currAddr := s.nextCurrAddr i

def output : Output p where
  initAddr := s.initAddrFire i
  traceData := s.traceDataFire i
  block := if s.blockDone i then some (asBlock (s.nextBlockBuffer i)) else none
  req := if s.reqFire i then some ⟨s.currAddr, p.burstSize⟩ else none
  data := if s.dataFire i then some ((s.bram.ramDataB ()).setWidth p.dataW) else none

variable (p) in
def machine : Machine (TraceDump p) (Input p) (Output p) where
  next := next
  output := output

end TraceDump

end KnockoutKraken.Instrumentation
