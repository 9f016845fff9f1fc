import KnockoutKraken.Armflex.PState
import KnockoutKraken.Library.BitSet
import KnockoutKraken.Library.Packing
import KnockoutKraken.Util.Bram

/-!
# The transplant unit

It copies the state of one thread at a time: from the buffer the host sees
to the register file, or from its own copy of the register file to that
buffer. A copy takes one cycle for each row of the thread's slot and one
more; addresses run one cycle ahead of the data they are for.
-/

namespace KnockoutKraken.Armflex

open Library Util

inductive TransplantState where
  | sIdle | sTrans
deriving DecidableEq

inductive TransplantDir where
  | bram2cpu | cpu2bram
deriving DecidableEq

inductive StateRegType where
  | rDone | rXregs | rPc | rSp | rNzcv
deriving DecidableEq

structure TransplantControl (thidW : Nat) where
  state : TransplantState
  stateDir : TransplantDir
  thread : BitVec thidW
  stateRegType : StateRegType
  bramOFFST : BitVec (thidW + 6)
  currReg : BitVec 6
  cpu2transPending : BitVec (2 ^ thidW)
deriving DecidableEq

namespace TransplantControl

open TransplantState TransplantDir StateRegType

variable {thidW : Nat}

structure Input (thidW : Nat) where
  pending : BitVec (2 ^ thidW)
  done : Option (BitVec thidW)
  instFault : Option (BitVec thidW)
  dataFault : Option (BitVec thidW)

def reset (thidW : Nat) : TransplantControl thidW := ⟨sIdle, bram2cpu, 0, rDone, 0, 0, 0⟩

variable (c : TransplantControl thidW) (i : Input thidW)

/-- The unit is idle and begins to copy a thread in. -/
def takesHost : Bool := decide (c.state = sIdle ∧ i.pending ≠ 0)

/-- The unit is idle, the host wants nothing, and it begins to copy a thread out. -/
def takesCpu : Bool := decide (c.state = sIdle ∧ i.pending = 0 ∧ c.cpu2transPending ≠ 0)

def threadNext : BitVec thidW :=
  if c.takesHost i then priorityEncoder i.pending
  else if c.takesCpu i then priorityEncoder c.cpu2transPending
  else c.thread

def finishes : Bool := decide (c.state = sTrans ∧ c.stateRegType = rDone)

def clear : Option (BitVec thidW) := if c.takesHost i then some (c.threadNext i) else none

def hostDone : Option (BitVec thidW) := if c.finishes && decide (c.stateDir = cpu2bram) then some c.thread else none

def start : Option (BitVec thidW) := if c.finishes && decide (c.stateDir = bram2cpu) then some c.thread else none

def updatingPState : Bool := decide (c.state = sTrans ∧ c.stateDir = bram2cpu)

def cpu2transInsert : BitVec (2 ^ thidW) := bitOf _ i.done ||| bitOf _ i.dataFault ||| bitOf _ i.instFault

def cpu2transClear : Option (BitVec thidW) := if c.takesCpu i then some (c.threadNext i) else none

/-- The kind of the row after row `currReg`. -/
def stateRegTypeNext : StateRegType :=
  if c.currReg = 31 then rPc
  else if c.currReg = 32 then rSp
  else if c.currReg = 33 then rNzcv
  else if c.currReg = 34 then rDone
  else c.stateRegType

def next : TransplantControl thidW where
  state :=
    match c.state with
    | sIdle => if c.takesHost i || c.takesCpu i then sTrans else sIdle
    | sTrans => if c.finishes then sIdle else sTrans
  stateDir := if c.takesHost i then bram2cpu else if c.takesCpu i then cpu2bram else c.stateDir
  thread := c.threadNext i
  stateRegType :=
    match c.state with
    | sIdle => if c.takesHost i || c.takesCpu i then rXregs else c.stateRegType
    | sTrans => c.stateRegTypeNext
  bramOFFST :=
    match c.state with
    | sIdle => if c.takesHost i || c.takesCpu i then c.threadNext i ++ 0#6 else c.bramOFFST
    | sTrans => c.bramOFFST + 1
  currReg :=
    match c.state with
    | sIdle => if c.takesHost i || c.takesCpu i then 0 else c.currReg
    | sTrans => c.currReg + 1
  cpu2transPending := (c.cpu2transPending &&& ~~~bitOf _ (c.cpu2transClear i)) ||| cpu2transInsert i

section Counting

variable {c : TransplantControl thidW} {i : Input thidW}

theorem takesHost_iff : c.takesHost i = true ↔ c.state = sIdle ∧ i.pending ≠ 0 := decide_eq_true_iff

theorem takesCpu_iff : c.takesCpu i = true ↔ c.state = sIdle ∧ i.pending = 0 ∧ c.cpu2transPending ≠ 0 :=
  decide_eq_true_iff

theorem takes_of_trans (h : c.state = sTrans) : c.takesHost i = false ∧ c.takesCpu i = false := by
  simp [takesHost, takesCpu, h]

theorem takesCpu_of_takesHost (h : c.takesHost i = true) : c.takesCpu i = false := by
  have hPending := (takesHost_iff.mp h).2
  exact decide_eq_false fun hCpu => hPending hCpu.2.1

theorem getLsbD_threadNext (h : c.takesHost i = true) : i.pending.getLsbD (c.threadNext i).toNat = true := by
  rw [threadNext, if_pos h]
  exact getLsbD_priorityEncoder (takesHost_iff.mp h).2

theorem threadNext_le (h : c.takesHost i = true) {t : Nat} (hBit : i.pending.getLsbD t = true) :
    (c.threadNext i).toNat ≤ t := by
  rw [threadNext, if_pos h]
  exact (priorityEncoder_spec hBit).2

theorem next_of_trans (h : c.state = sTrans) :
    (c.next i).thread = c.thread ∧ (c.next i).stateDir = c.stateDir ∧ (c.next i).currReg = c.currReg + 1 ∧
      (c.next i).stateRegType = c.stateRegTypeNext := by
  obtain ⟨hHost, hCpu⟩ := takes_of_trans (i := i) h
  simp [next, threadNext, hHost, hCpu, h]

theorem next_state_of_trans (h : c.state = sTrans) : (c.next i).state = if c.finishes then sIdle else sTrans := by
  simp only [next, h]

theorem next_of_idle (h : c.state = sIdle) :
    ((c.takesHost i || c.takesCpu i) = true ∧ (c.next i).state = sTrans ∧ (c.next i).currReg = 0) ∨
      ((c.takesHost i || c.takesCpu i) = false ∧ (c.next i).state = sIdle ∧ (c.next i).bramOFFST = c.bramOFFST ∧
        (c.next i).stateRegType = c.stateRegType) := by
  cases hTakes : c.takesHost i || c.takesCpu i with
  | true => exact .inl ⟨rfl, by simp [next, h, hTakes], by simp [next, h, hTakes]⟩
  | false => exact .inr ⟨rfl, by simp [next, h, hTakes], by simp [next, h, hTakes], by simp [next, h, hTakes]⟩

def typeAt (n : Nat) : StateRegType :=
  if n < 32 then rXregs else if n = 32 then rPc else if n = 33 then rSp else if n = 34 then rNzcv else rDone

theorem typeAt_eq_rDone {n : Nat} (h : n ≤ 35) : typeAt n = rDone ↔ n = 35 := by
  rw [typeAt]
  split_ifs <;> simp <;> omega

theorem typeAt_eq_rXregs {n : Nat} : typeAt n = rXregs ↔ n < 32 := by
  rw [typeAt]
  split_ifs <;> simp <;> omega

/-- During a copy the three counters agree; the copy ends at row 35. -/
structure Counting (c : TransplantControl thidW) : Prop where
  le : c.state = sTrans → c.currReg.toNat ≤ 35
  type : c.state = sTrans → c.stateRegType = typeAt c.currReg.toNat
  offset : c.state = sTrans → c.bramOFFST = c.thread ++ c.currReg

theorem Counting.reset : Counting (reset thidW) := ⟨nofun, nofun, nofun⟩

theorem Counting.finishes_iff (h : Counting c) (hTrans : c.state = sTrans) :
    c.finishes = true ↔ c.currReg.toNat = 35 := by
  rw [finishes, decide_eq_true_iff, h.type hTrans, typeAt_eq_rDone (h.le hTrans)]
  exact and_iff_right hTrans

theorem toNat_succ {r : BitVec 6} (h : r.toNat < 63) : (r + 1).toNat = r.toNat + 1 := by
  rw [BitVec.toNat_add, Nat.mod_eq_of_lt (by simpa using Nat.succ_lt_succ h)]
  rfl

theorem append_succ (t : BitVec thidW) {r : BitVec 6} (h : r.toNat < 63) : t ++ r + 1 = t ++ (r + 1) := by
  have hOne : BitVec.toNat (1 : BitVec (thidW + 6)) = 1 := Nat.mod_eq_of_lt (Nat.one_lt_two_pow (by omega))
  have hApp : ∀ r : BitVec 6, (t ++ r).toNat = t.toNat * 64 + r.toNat := fun r => by
    rw [BitVec.toNat_append, ← Nat.shiftLeft_add_eq_or_of_lt r.isLt, Nat.shiftLeft_eq]
  have hBound : t.toNat * 64 + r.toNat + 1 < 2 ^ (thidW + 6) := by
    rw [Nat.pow_add]
    have := t.isLt
    omega
  apply BitVec.eq_of_toNat_eq
  rw [hApp, toNat_succ h, BitVec.toNat_add, hApp, hOne, Nat.mod_eq_of_lt hBound, Nat.add_assoc]

theorem stateRegTypeNext_eq (h : c.currReg.toNat < 35) (hType : c.stateRegType = typeAt c.currReg.toNat) :
    c.stateRegTypeNext = typeAt (c.currReg.toNat + 1) := by
  have hEq : ∀ k : Nat, k < 64 → (c.currReg = BitVec.ofNat 6 k ↔ c.currReg.toNat = k) := fun k hk => by
    rw [← BitVec.toNat_inj, BitVec.toNat_ofNat, Nat.mod_eq_of_lt hk]
  simp only [stateRegTypeNext, BitVec.ofNat_eq_ofNat, hEq 31 (by decide), hEq 32 (by decide), hEq 33 (by decide),
    hEq 34 (by decide), hType, typeAt]
  split_ifs <;> first | rfl | omega

theorem Counting.next (h : Counting c) (i : Input thidW) : Counting (c.next i) := by
  cases hState : c.state with
  | sIdle =>
    cases hTakes : c.takesHost i || c.takesCpu i with
    | false =>
      have hNext : (c.next i).state = sIdle := by simp [TransplantControl.next, hState, hTakes]
      exact ⟨by simp [hNext], by simp [hNext], by simp [hNext]⟩
    | true =>
      refine ⟨fun _ => ?_, fun _ => ?_, fun _ => ?_⟩ <;> simp [TransplantControl.next, hState, hTakes, typeAt]
  | sTrans =>
    obtain ⟨hThread, -, hReg, hType⟩ := next_of_trans (i := i) hState
    cases hEnd : c.finishes with
    | true =>
      have hNext : (c.next i).state = sIdle := by simp [TransplantControl.next, hState, hEnd]
      exact ⟨by simp [hNext], by simp [hNext], by simp [hNext]⟩
    | false =>
      have hLt : c.currReg.toNat < 35 := by
        have hLe := h.le hState
        have hNe : c.currReg.toNat ≠ 35 := fun hEq => by simp [(h.finishes_iff hState).mpr hEq] at hEnd
        omega
      have hVal := toNat_succ (r := c.currReg) (by omega)
      refine ⟨fun _ => ?_, fun _ => ?_, fun _ => ?_⟩
      · rw [hReg, hVal]
        omega
      · rw [hReg, hVal, ← stateRegTypeNext_eq hLt (h.type hState)]
        exact hType
      · rw [hReg, hThread, ← append_succ _ (by omega), ← h.offset hState]
        simp [TransplantControl.next, hState]

theorem Counting.row_of_finishes (h : Counting c) (hEnd : c.finishes = true) : c.currReg = 35 := by
  have hRow := (h.finishes_iff (of_decide_eq_true hEnd).1).mp hEnd
  exact BitVec.eq_of_toNat_eq hRow

theorem Counting.end_of_finishes (h : Counting c) (i : Input thidW) (hEnd : c.finishes = true) :
    (c.next i).stateRegType = rDone ∧ (c.next i).bramOFFST = c.thread ++ 36#6 := by
  have hTrans : c.state = sTrans := (of_decide_eq_true hEnd).1
  have hType : c.stateRegType = rDone := (of_decide_eq_true hEnd).2
  have hRow := h.row_of_finishes hEnd
  constructor
  · rw [(next_of_trans hTrans).2.2.2, stateRegTypeNext, hRow, hType]
    rfl
  · have hOffset : (c.next i).bramOFFST = c.bramOFFST + 1 := by simp [TransplantControl.next, hTrans]
    rw [hOffset, h.offset hTrans, append_succ _ (by rw [hRow]; decide), hRow]
    rfl

def remaining (c : TransplantControl thidW) : Nat := if c.state = sTrans then 36 - c.currReg.toNat else 0

theorem Counting.remaining_next (h : Counting c) (i : Input thidW) (hTrans : c.state = sTrans) :
    (c.next i).remaining + 1 = c.remaining := by
  have hLe := h.le hTrans
  have hEnds := h.finishes_iff hTrans
  rw [remaining, remaining, if_pos hTrans]
  cases hEnd : c.finishes with
  | true =>
    have hState : (c.next i).state = sIdle := by simp [TransplantControl.next, hTrans, hEnd]
    rw [hState, if_neg (by decide), hEnds.mp hEnd]
  | false =>
    have hState : (c.next i).state = sTrans := by simp [TransplantControl.next, hTrans, hEnd]
    have hReg : (c.next i).currReg = c.currReg + 1 := by simp [TransplantControl.next, hTrans]
    have hNe : c.currReg.toNat ≠ 35 := fun hEq => by simp [hEnds.mpr hEq] at hEnd
    rw [if_pos hState, hReg, toNat_succ (by omega)]
    omega

theorem remaining_of_takes (h : c.takesHost i = true ∨ c.takesCpu i = true) : (c.next i).remaining = 36 := by
  have hState : c.state = sIdle := h.elim (fun h => (takesHost_iff.mp h).1) fun h => (takesCpu_iff.mp h).1
  have hTakes : (c.takesHost i || c.takesCpu i) = true := Bool.or_eq_true_iff.mpr h
  simp [remaining, TransplantControl.next, hState, hTakes]

end Counting

end TransplantControl

/-- Rows of the buffer the host sees: a slot of 64 rows a thread. -/
def hostAddrW (thidW : Nat) : Nat := max 10 (thidW + 6)

/-- A word as the byte columns of a buffer row. -/
def columns (word : Word) : Fin 8 → BitVec 8 := unpackVec word

def ofColumns (row : Fin 8 → BitVec 8) : Word := packVec 8 row

@[simp] theorem ofColumns_columns (word : Word) : ofColumns (columns word) = word := packVec_unpackVec _

abbrev HostPort (thidW : Nat) := BRAMPort (BitVec (hostAddrW thidW)) (Fin 8) (BitVec 8)

/-- The unit with its copy of the register file, the buffer of the host, and the delayed control signals. -/
structure TransplantUnit (thidW : Nat) where
  control : TransplantControl thidW
  stateBuffer : BRAMTDP (BitVec (registerAddrW thidW)) Unit Word
  hostBuffer : BRAMTDP (BitVec (hostAddrW thidW)) (Fin 8) (BitVec 8)
  bramOFFSTNext : BitVec (thidW + 6)
  stateRegTypeCurr : StateRegType
  rfileWrEn : Bool
  rfileWrAddr : BitVec (thidW + 6)
  rfileWrTag : BitVec thidW

namespace TransplantUnit

open TransplantState TransplantDir StateRegType

variable {thidW : Nat}

/-- What the unit sees of the pipeline, the registers of the host, and the host's port. -/
structure Input (thidW : Nat) where
  requests : TransplantControl.Input thidW
  pregs : PStateRegs
  rfileWr : RFileWrite thidW
  hostPort : HostPort thidW

/-- The row of a register in the state buffer: the tag, padded to the width of `currReg`. -/
def stateRow (tag : BitVec thidW) (reg : BitVec 6) : BitVec (registerAddrW thidW) := (tag ++ reg).setWidth _

def hostRow (offset : BitVec (thidW + 6)) : BitVec (hostAddrW thidW) := offset.setWidth _

variable (u : TransplantUnit thidW) (i : Input thidW)

def stateBufferDO : Word := u.stateBuffer.ramDataB ()

def hostBufferDO : Word := ofColumns u.hostBuffer.ramDataA

/-- The word for the host's buffer. The stack pointer is a register of the file. -/
def hostDI : Word :=
  if u.control.stateRegType = rXregs then u.stateBufferDO
  else if u.stateRegTypeCurr = rPc then i.pregs.pc
  else if u.stateRegTypeCurr = rNzcv then i.pregs.nzcv.setWidth 64
  else u.stateBufferDO

def hostTransPort : HostPort thidW where
  en := decide (u.control.state = sTrans)
  we := fun _ => decide (u.control.stateDir = cpu2bram)
  addr := hostRow (if u.control.stateDir = bram2cpu then u.control.bramOFFST else u.bramOFFSTNext)
  di := columns (u.hostDI i)

def pregs (curr : PStateRegs) : PStateRegs :=
  if u.control.stateRegType = rXregs then curr
  else if u.stateRegTypeCurr = rPc then { curr with pc := u.hostBufferDO }
  else if u.stateRegTypeCurr = rNzcv then { curr with nzcv := u.hostBufferDO.setWidth 4 }
  else curr

def rfileWr : RFileWrite thidW := ⟨u.rfileWrAddr.setWidth 5, u.hostBufferDO, u.rfileWrEn, u.rfileWrTag⟩

/-- The state buffer follows the writes to the register file, whichever side they come from. -/
def stateBufferWr : RFileWrite thidW := if u.control.updatingPState then u.rfileWr else i.rfileWr

def stateBufferWrPort : BRAMPort (BitVec (registerAddrW thidW)) Unit Word where
  en := (u.stateBufferWr i).en
  we := fun _ => (u.stateBufferWr i).en
  addr := stateRow (u.stateBufferWr i).tag ((u.stateBufferWr i).addr.setWidth 6)
  di := fun _ => (u.stateBufferWr i).data

def stateBufferRdPort : BRAMPort (BitVec (registerAddrW thidW)) Unit Word :=
  .read (stateRow u.control.thread u.control.currReg) fun _ => 0

def next : TransplantUnit thidW where
  control := u.control.next i.requests
  stateBuffer := u.stateBuffer.next (u.stateBufferWrPort i) u.stateBufferRdPort
  hostBuffer := u.hostBuffer.next (u.hostTransPort i) i.hostPort
  bramOFFSTNext := u.control.bramOFFST
  stateRegTypeCurr := u.control.stateRegType
  rfileWrEn := decide (u.control.state = sTrans ∧ u.control.stateRegType = rXregs ∧ u.control.stateDir = bram2cpu)
  rfileWrAddr := u.control.thread ++ u.control.currReg
  rfileWrTag := u.control.thread

end TransplantUnit

end KnockoutKraken.Armflex
