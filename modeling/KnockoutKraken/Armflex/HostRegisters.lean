import KnockoutKraken.Antmicro.AXI4LiteCSR
import KnockoutKraken.Armflex.RoundTrip
import KnockoutKraken.Armflex.StopCPU

/-!
# The registers of the host

Behind the bridge the host finds the slots of the threads, the address
spaces the threads are registered with, and the three registers of the
transplants. A register changes by what the unit does and by the writes
of the host, and a write lands in one cycle: in that of its data.
-/

namespace KnockoutKraken.Armflex

open Library Util Antmicro

abbrev csrAddrW : Nat := 14

structure CSRThid2asid (thidW asidW : Nat) where
  asid : BitVec thidW → BitVec asidW
  valid : BitVec thidW → Bool
  dataInR : BitVec axiDataW

namespace CSRThid2asid

variable {thidW asidW : Nat}

/-- The thread is not registered with the number of no process. -/
def next (u : CSRThid2asid thidW asidW) (bus : CSRBusBundle thidW axiDataW) : CSRThid2asid thidW asidW where
  asid := if bus.write then Function.update u.asid bus.addr (bus.dataOut.setWidth asidW) else u.asid
  valid := if bus.write then Function.update u.valid bus.addr (decide (bus.dataOut ≠ BitVec.allOnes axiDataW)) else u.valid
  dataInR := (u.asid bus.addr).setWidth axiDataW

end CSRThid2asid

/-- The bridge, the line that says which half of a row was read, and the address spaces. -/
structure ControlPort (thidW asidW : Nat) where
  axilToCSR : AXI4LiteCSR csrAddrW
  oddR : Bool
  thid2asid : CSRThid2asid thidW asidW

namespace ControlPort

variable {thidW asidW : Nat}

def archstateSlave : CSRBusSlave := ⟨0, 0x8000 >>> 2⟩

def thid2asidSlave (thidW : Nat) : CSRBusSlave := ⟨0x8000 >>> 2, 2 ^ thidW⟩

def transplantSlave : CSRBusSlave := ⟨0x9000 >>> 2, 3⟩

variable (u : ControlPort thidW asidW) (m : AXI4LiteMaster (csrAddrW + 2) axiDataW)

def masterBus : CSRBusBundle csrAddrW axiDataW := u.axilToCSR.bus m

def thid2asidBus : CSRBusBundle thidW axiDataW := (thid2asidSlave thidW).bus (u.masterBus m) thidW

def transplantBus : CSRBusBundle 2 axiDataW := transplantSlave.bus (u.masterBus m) 2

def archstateBus : CSRBusBundle 13 axiDataW := archstateSlave.bus (u.masterBus m) 13

/-- The half of a row behind the 13 lines of the slave; the memory may have fewer rows. -/
def bufferWord (addr : BitVec 13) : BitVec (hostAddrW thidW + 1) := addr.setWidth _

def rowOf (word : BitVec (hostAddrW thidW + 1)) : BitVec (hostAddrW thidW) := (word >>> 1).setWidth _

/-- The word on both halves of a row. -/
def twice (word : BitVec axiDataW) : Word := word ++ word

/-- `CSR2BRAM`: both halves of a row are offered the word, and one of them is enabled. -/
def hostPort : HostPort thidW where
  en := (u.archstateBus m).read || (u.archstateBus m).write
  we col := (u.archstateBus m).write && (decide (4 ≤ col.val) == (u.archstateBus m).addr.getLsbD 0)
  addr := rowOf (bufferWord (u.archstateBus m).addr)
  di := columns (twice (u.archstateBus m).dataOut)

/-- The half of a row that the port shows. -/
def half (odd : Bool) (row : Word) : BitVec axiDataW := if odd then row.extractLsb' 32 32 else row.extractLsb' 0 32

/-- The mark of an address without a register, `0xDEAD2BAD.S.asUInt`: the signed literal has 31
bits, and the wire extends them by a zero. -/
def noRegister : BitVec axiDataW := (0x5EAD2BAD : BitVec 31).setWidth _

example : BitVec.ofInt 31 (0xDEAD2BAD - 2 ^ 32) = 0x5EAD2BAD#31 := by decide

/-- What the three slaves show, and the master of them; `csr` are the registers of the transplants. -/
def dataIn (row : Word) (csr : BitVec 2 → BitVec axiDataW) : BitVec axiDataW :=
  csrDataIn noRegister [(archstateSlave, half u.oddR row), (thid2asidSlave thidW, u.thid2asid.dataInR),
    (transplantSlave, if (u.transplantBus m).read then csr (u.transplantBus m).addr else 0)] (u.masterBus m).addr

def next : ControlPort thidW asidW where
  axilToCSR := u.axilToCSR.next m
  oddR := (u.archstateBus m).addr.getLsbD 0
  thid2asid := u.thid2asid.next (u.thid2asidBus m)

end ControlPort

/-- The pipeline behind its port. It is watched together with the addresses the host has shown and with what a register
held as its address was taken. -/
structure HostedPipeline (params : PipelineParams) (δ : Type) (asidW : Nat) where
  port : ControlPort params.thidW asidW
  axi : PipelineAxi params δ
  aw : Option (BitVec (csrAddrW + 2))
  ar : Option (BitVec (csrAddrW + 2))
  seen : BitVec axiDataW

/-- What the host finds behind an address: half of a row of a slot, an address space, or a register of the transplants. -/
inductive HostRegister (thidW : Nat) where
  | buffer (word : BitVec (hostAddrW thidW + 1))
  | asid (thread : BitVec thidW)
  | trans2host
  | pending
  | stopCPU
deriving DecidableEq

namespace HostRegister

variable {thidW : Nat}

/-- The register of the transplants on line `k`. -/
def ofCsr (k : BitVec 2) : Option (HostRegister thidW) :=
  if k = 0 then some .trans2host else if k = 1 then some .pending else if k = 2 then some .stopCPU else none

def ofAddr (addr : BitVec csrAddrW) : Option (HostRegister thidW) :=
  if ControlPort.archstateSlave.hit addr then some (.buffer (ControlPort.bufferWord (ControlPort.archstateSlave.line 13 addr)))
  else if (ControlPort.thid2asidSlave thidW).hit addr then some (.asid ((ControlPort.thid2asidSlave thidW).line thidW addr))
  else if ControlPort.transplantSlave.hit addr then ofCsr (ControlPort.transplantSlave.line 2 addr)
  else none

end HostRegister

namespace HostedPipeline

open Pipeline ControlPort

variable {params : PipelineParams} {δ : Type} {asidW : Nat}

structure Input (params : PipelineParams) where
  master : AXI4LiteMaster (csrAddrW + 2) axiDataW
  inst : MemPort params Unit
  data : MemPort params Unit
  wake : Fin 2 → Option params.Thid
  read : Operands

variable (x : ExecuteStage δ params.thidW) (s : HostedPipeline params δ asidW) (i : Input params)

section Wires

def bridge : WatchedCSR csrAddrW := ⟨s.port.axilToCSR, s.aw, s.ar⟩

def axiInput : PipelineAxi.Input params :=
  ⟨(s.port.transplantBus i.master).write?, s.port.hostPort i.master, i.inst, i.data, i.wake, i.read⟩

def csr (k : BitVec 2) : BitVec axiDataW :=
  if k = 0 then s.axi.trans2host else if k = 1 then s.axi.pendingHostTrans else if k = 2 then s.axi.host2transStopCPU else 0

def row : Word := ofColumns s.axi.transplantU.hostBuffer.ramDataB

def dataIn : BitVec axiDataW := s.port.dataIn i.master s.row s.csr

def ports : CSRPorts csrAddrW axiDataW := s.port.axilToCSR.ports i.master (s.dataIn i)

end Wires

section Values

def unitInput : TransplantUnit.Input params.thidW := s.axi.state.transplantInput (s.axi.stateInput x (s.axiInput i))

def value : HostRegister params.thidW → BitVec axiDataW
  | .buffer word => ControlPort.half (word.getLsbD 0) (ofColumns (s.axi.transplantU.hostBuffer.mem (rowOf word)))
  | .asid thread => (s.port.thid2asid.asid thread).setWidth axiDataW
  | .trans2host => s.axi.trans2host
  | .pending => s.axi.pendingHostTrans
  | .stopCPU => s.axi.host2transStopCPU

/-- What an address shows; behind some there is no register. -/
def valueAt (addr : BitVec csrAddrW) : BitVec axiDataW := ((HostRegister.ofAddr addr).map s.value).getD noRegister

def written (r : HostRegister params.thidW) : Option (BitVec axiDataW) :=
  ((s.ports i).write.filter fun access => decide (HostRegister.ofAddr access.1 = some r)).map Prod.snd

/-- What a register holds in the next cycle: the word of the host, but for the registers of the transplants, which take
the pulses of the unit as well. -/
def valueNext : HostRegister params.thidW → BitVec axiDataW
  | .buffer word => (s.written i (.buffer word)).getD (ControlPort.half (word.getLsbD 0)
      (if s.axi.transplantU.stores = some (rowOf word) then s.axi.transplantU.hostDI (s.unitInput x i)
        else ofColumns (s.axi.transplantU.hostBuffer.mem (rowOf word))))
  | .asid thread => (((s.written i (.asid thread)).map (BitVec.setWidth asidW)).getD (s.port.thid2asid.asid thread)).setWidth axiDataW
  | .trans2host => SetCSR.next s.axi.trans2host (bitOf _ s.axi.transplantU.control.hostDone) (s.written i .trans2host)
  | .pending => ClearCSR.next s.axi.pendingHostTrans (bitOf _ (s.axi.transplantU.control.clear (s.unitInput x i).requests))
      (s.written i .pending)
  | .stopCPU => ClearCSR.next s.axi.host2transStopCPU (bitOf _ s.axi.transplantU.control.hostDone) (s.written i .stopCPU)

end Values

def next : HostedPipeline params δ asidW where
  port := s.port.next i.master
  axi := s.axi.next x (s.axiInput i)
  aw := (s.bridge.next i.master).aw
  ar := (s.bridge.next i.master).ar
  seen := if (s.ports i).ar.isSome then s.valueAt (s.port.masterBus i.master).addr else s.seen

def machine : Machine (HostedPipeline params δ asidW) (Input params) (CSRPorts csrAddrW axiDataW) := ⟨next x, ports⟩

/-- What has no value of its own at power-up. -/
structure Contents (params : PipelineParams) (asidW : Nat) where
  axi : PipelineAxi.Contents params
  dataInR : BitVec axiDataW

def reset (c : Contents params asidW) : HostedPipeline params δ asidW where
  port := ⟨.reset csrAddrW, false, ⟨fun _ => 0, fun _ => false, c.dataInR⟩⟩
  axi := .reset c.axi
  aw := none
  ar := none
  seen := 0

section Routing

open ControlPort HostRegister

variable {thidW : Nat} {addr : BitVec csrAddrW}

/-- No address has two slaves, unless there are more threads than words between the slaves. -/
theorem thid2asid_not_hit (hHit : archstateSlave.hit addr = true ∨ thidW ≤ 10 ∧ transplantSlave.hit addr = true) :
    (thid2asidSlave thidW).hit addr = false := by
  refine decide_eq_false fun h => ?_
  rcases hHit with hHit | ⟨hW, hHit⟩
  · have hRange := of_decide_eq_true hHit
    simp only [archstateSlave, thid2asidSlave] at hRange h
    omega
  · have hRange := of_decide_eq_true hHit
    have hThreads : 2 ^ thidW ≤ 2 ^ 10 := Nat.pow_le_pow_right (by decide) hW
    simp only [transplantSlave, thid2asidSlave] at hRange h
    omega

variable (thidW) in
theorem archstate_not_hit (hHit : (thid2asidSlave thidW).hit addr = true ∨ transplantSlave.hit addr = true) :
    archstateSlave.hit addr = false := by
  refine decide_eq_false fun h => ?_
  rcases hHit with hHit | hHit <;>
    · have hRange := of_decide_eq_true hHit
      simp only [archstateSlave, thid2asidSlave, transplantSlave] at hRange h
      omega

theorem ofAddr_of_archstate (hHit : archstateSlave.hit addr = true) :
    (ofAddr addr : Option (HostRegister thidW)) = some (.buffer (bufferWord (archstateSlave.line 13 addr))) :=
  if_pos hHit

theorem ofAddr_of_thid2asid (hHit : (thid2asidSlave thidW).hit addr = true) :
    ofAddr addr = some (.asid ((thid2asidSlave thidW).line thidW addr)) := by
  rw [ofAddr, archstate_not_hit thidW (.inl hHit), if_neg (by decide), if_pos hHit]

theorem ofAddr_of_transplant (hW : thidW ≤ 10) (hHit : transplantSlave.hit addr = true) :
    (ofAddr addr : Option (HostRegister thidW)) = ofCsr (transplantSlave.line 2 addr) := by
  rw [ofAddr, archstate_not_hit thidW (.inr hHit), if_neg (by decide), thid2asid_not_hit (.inr ⟨hW, hHit⟩),
    if_neg (by decide), if_pos hHit]

theorem ofAddr_of_none (hArchstate : archstateSlave.hit addr = false) (hThid : (thid2asidSlave thidW).hit addr = false)
    (hTransplant : transplantSlave.hit addr = false) : (ofAddr addr : Option (HostRegister thidW)) = none := by
  rw [ofAddr, hArchstate, hThid, hTransplant]
  rfl

theorem ofCsr_ne_buffer {k : BitVec 2} {word : BitVec (hostAddrW thidW + 1)} : ofCsr k ≠ some (.buffer word) := by
  rw [ofCsr]
  split_ifs <;> simp

theorem ofCsr_ne_asid {k : BitVec 2} {thread : BitVec thidW} : ofCsr k ≠ some (.asid thread) := by
  rw [ofCsr]
  split_ifs <;> simp

theorem ofAddr_eq_buffer_iff {word : BitVec (hostAddrW thidW + 1)} :
    ofAddr addr = some (.buffer word) ↔ archstateSlave.hit addr = true ∧ bufferWord (archstateSlave.line 13 addr) = word := by
  rw [ofAddr]
  split_ifs with hArchstate hThid hTransplant <;> simp [hArchstate, ofCsr_ne_buffer]

theorem ofAddr_eq_asid_iff {thread : BitVec thidW} :
    ofAddr addr = some (.asid thread) ↔ (thid2asidSlave thidW).hit addr = true ∧ (thid2asidSlave thidW).line thidW addr = thread := by
  rw [ofAddr]
  split_ifs with hArchstate hThid hTransplant
  · simp [thid2asid_not_hit (.inl hArchstate)]
  all_goals simp [hThid, ofCsr_ne_asid]

theorem ofCsr_eq_iff {l k : BitVec 2} (hk : k ≠ 3) : (ofCsr l : Option (HostRegister thidW)) = ofCsr k ↔ l = k := by
  have hAll : ∀ l : BitVec 2, l = 0 ∨ l = 1 ∨ l = 2 ∨ l = 3 := by decide
  rcases hAll l with rfl | rfl | rfl | rfl <;> rcases hAll k with rfl | rfl | rfl | rfl
  all_goals first | exact absurd rfl hk | simp [ofCsr]

/-- The registers of the transplants have one line each. -/
theorem ofAddr_eq_ofCsr_iff (hW : thidW ≤ 10) {k : BitVec 2} (hk : k ≠ 3) :
    (ofAddr addr : Option (HostRegister thidW)) = ofCsr k ↔
      transplantSlave.hit addr = true ∧ transplantSlave.line 2 addr = k := by
  cases hHit : transplantSlave.hit addr with
  | true => rw [ofAddr_of_transplant hW hHit, ofCsr_eq_iff hk, eq_self_iff_true, true_and]
  | false =>
    have hNone : (none : Option (HostRegister thidW)) ≠ ofCsr k := fun hEq => hk ((ofCsr_eq_iff (l := 3) hk).mp hEq).symm
    rw [ofAddr, hHit, if_neg (show ¬ false = true by decide)]
    split_ifs <;> simp [ofCsr_ne_buffer.symm, ofCsr_ne_asid.symm, hNone]

end Routing

section Halves

open ControlPort

variable {thidW : Nat}

theorem half_congr {odd : Bool} {row row' : Fin 8 → BitVec 8} (h : ∀ col : Fin 8, decide (4 ≤ col.val) = odd → row col = row' col) :
    half odd (ofColumns row) = half odd (ofColumns row') := by
  have hColumn : ∀ start, start = (if odd then 32 else 0) → ∀ j < 32,
      (ofColumns row).getLsbD (start + j) = (ofColumns row').getLsbD (start + j) := by
    rintro _ rfl j hj
    have hPlace : (if odd then 32 else 0) + j = ((if odd then 4 else 0) + j / 8) * 8 + j % 8 := by
      cases odd <;> simp <;> omega
    have hBound : (if odd then 4 else 0) + j / 8 < 8 := by
      cases odd <;> simp <;> omega
    have hSame := h ⟨(if odd then 4 else 0) + j / 8, hBound⟩ (by cases odd <;> simp; omega)
    rw [hPlace]
    exact (getLsbD_packVec row ⟨_, hBound⟩ (Nat.mod_lt j (by decide))).trans
      ((congrArg (fun byte => BitVec.getLsbD byte (j % 8)) hSame).trans
        (getLsbD_packVec row' ⟨_, hBound⟩ (Nat.mod_lt j (by decide))).symm)
  apply BitVec.eq_of_getLsbD_eq
  intro j hj
  cases odd with
  | false =>
    change ((ofColumns row).extractLsb' 0 32).getLsbD j = ((ofColumns row').extractLsb' 0 32).getLsbD j
    rw [BitVec.getLsbD_extractLsb', BitVec.getLsbD_extractLsb', hColumn 0 rfl j hj]
  | true =>
    change ((ofColumns row).extractLsb' 32 32).getLsbD j = ((ofColumns row').extractLsb' 32 32).getLsbD j
    rw [BitVec.getLsbD_extractLsb', BitVec.getLsbD_extractLsb', hColumn 32 rfl j hj]

theorem half_twice (odd : Bool) (word : BitVec axiDataW) : half odd (twice word) = word := by
  cases odd with
  | false => exact BitVec.extractLsb'_append_eq_right
  | true => exact BitVec.extractLsb'_append_eq_left

theorem word_eq_iff {word word' : BitVec (hostAddrW thidW + 1)} :
    word = word' ↔ rowOf word = rowOf word' ∧ word.getLsbD 0 = word'.getLsbD 0 := by
  constructor
  · rintro rfl
    exact ⟨rfl, rfl⟩
  · rintro ⟨hRow, hSide⟩
    apply BitVec.eq_of_getLsbD_eq
    intro j hj
    cases j with
    | zero => exact hSide
    | succ j =>
      have hBit := congrArg (fun row => BitVec.getLsbD row j) hRow
      simpa [rowOf, Nat.lt_of_succ_lt_succ hj, Nat.add_comm 1 j] using hBit

variable (thidW) in
theorem getLsbD_bufferWord (addr : BitVec 13) :
    (bufferWord addr : BitVec (hostAddrW thidW + 1)).getLsbD 0 = addr.getLsbD 0 := by
  simp [bufferWord]

theorem half_writePort {asidW : Nat} (u : ControlPort thidW asidW) (m : AXI4LiteMaster (csrAddrW + 2) axiDataW)
    (mem : BitVec (hostAddrW thidW) → Fin 8 → BitVec 8) (word : BitVec (hostAddrW thidW + 1)) :
    half (word.getLsbD 0) (ofColumns (BRAMTDP.writePort mem (u.hostPort m) (rowOf word))) =
      if (u.archstateBus m).write = true ∧ bufferWord (u.archstateBus m).addr = word then (u.archstateBus m).dataOut
      else half (word.getLsbD 0) (ofColumns (mem (rowOf word))) := by
  have hSide := getLsbD_bufferWord thidW (u.archstateBus m).addr
  cases hWrite : (u.archstateBus m).write with
  | false =>
    have hOff : ∀ col, ((u.hostPort m).en && (u.hostPort m).we col) = false := fun col => by simp [hostPort, hWrite]
    rw [BRAMTDP.writePort_of_off hOff, if_neg (by simp)]
  | true =>
    have hEn : (u.hostPort m).en = true := by rw [hostPort, hWrite, Bool.or_true]
    have hWes : ∀ col, (u.hostPort m).we col = (decide (4 ≤ col.val) == (u.archstateBus m).addr.getLsbD 0) := fun col =>
      (congrArg (· && _) hWrite).trans (Bool.true_and _)
    by_cases hWord : bufferWord (u.archstateBus m).addr = word
    · refine Eq.trans (half_congr (fun col hCol => ?_ : ∀ col : Fin 8, decide (4 ≤ col.val) = word.getLsbD 0 →
        BRAMTDP.writePort mem (u.hostPort m) (rowOf word) col = columns (twice (u.archstateBus m).dataOut) col)) ?_
      · have hWe : (u.hostPort m).we col = true := by
          rw [← hWord, hSide] at hCol
          rw [hWes, hCol, beq_self_eq_true]
        have hRow : rowOf word = (u.hostPort m).addr := by rw [← hWord]; rfl
        rw [BRAMTDP.writePort, hEn, hWe, hRow, decide_eq_true rfl]
        rfl
      · rw [ofColumns_columns, half_twice, if_pos ⟨rfl, hWord⟩]
    · rw [if_neg fun h => hWord h.2]
      refine half_congr fun col hCol => ?_
      by_cases hRow : rowOf word = (u.hostPort m).addr
      · have hOther : (u.archstateBus m).addr.getLsbD 0 ≠ word.getLsbD 0 := fun hEq =>
          hWord (word_eq_iff.mpr ⟨hRow.symm, hSide.trans hEq⟩)
        have hWe : (u.hostPort m).we col = false := by
          rw [hWes, hCol]
          exact beq_eq_false_iff_ne.mpr hOther.symm
        rw [BRAMTDP.writePort, hWe, Bool.and_false, Bool.false_and, if_neg (by decide)]
      · rw [BRAMTDP.writePort_of_ne hRow]

end Halves

section Cycle

open ControlPort HostRegister

variable {x} {s} {i}

theorem written_eq (r : HostRegister params.thidW) : s.written i r =
    if (s.port.masterBus i.master).write = true ∧ ofAddr (s.port.masterBus i.master).addr = some r then
      some (s.port.masterBus i.master).dataOut else none := by
  have hWrite : (s.ports i).write = if (s.port.masterBus i.master).write then
      some ((s.port.masterBus i.master).addr, (s.port.masterBus i.master).dataOut) else none := rfl
  rw [written, hWrite]
  cases (s.port.masterBus i.master).write with
  | false => simp
  | true => by_cases hAddr : ofAddr (s.port.masterBus i.master).addr = some r <;> simp [Option.filter, hAddr]

theorem written_of_slave {slave : CSRBusSlave} {width : Nat} (named : BitVec width → Prop) [DecidablePred named]
    {r : HostRegister params.thidW} (hAddr : ofAddr (s.port.masterBus i.master).addr = some r ↔
      slave.hit (s.port.masterBus i.master).addr = true ∧ named (slave.line width (s.port.masterBus i.master).addr)) :
    s.written i r = if (slave.bus (s.port.masterBus i.master) width).write = true ∧
      named (slave.bus (s.port.masterBus i.master) width).addr then some (s.port.masterBus i.master).dataOut else none := by
  rw [written_eq]
  exact if_congr (by rw [hAddr, CSRBusSlave.bus, Bool.and_eq_true, and_assoc]) rfl rfl

theorem written_csr (hW : params.thidW ≤ 10) {k : BitVec 2} (hk : k ≠ 3) {r : HostRegister params.thidW} (hr : ofCsr k = some r) :
    CSRBusWrite.csr (s.axiInput i).bus k.toNat = s.written i r := by
  rw [written_of_slave (· = k) (hr ▸ ofAddr_eq_ofCsr_iff hW hk)]
  change ((transplantSlave.bus (s.port.masterBus i.master) 2).write?.filter _).map _ = _
  rw [CSRBusBundle.write?]
  cases (transplantSlave.bus (s.port.masterBus i.master) 2).write with
  | false => rfl
  | true =>
    by_cases hLine : (transplantSlave.bus (s.port.masterBus i.master) 2).addr = k
    · rw [if_pos rfl, if_pos ⟨rfl, hLine⟩, hLine, Option.filter, if_pos (decide_eq_true rfl)]
      rfl
    · rw [if_pos rfl, if_neg fun h => hLine h.2, Option.filter, if_neg]
      · rfl
      · exact fun hEq => hLine (BitVec.eq_of_toNat_eq (of_decide_eq_true hEq))

theorem asid_written (t : params.Thid) : (s.next x i).port.thid2asid.asid t =
    ((s.written i (.asid t)).map (BitVec.setWidth asidW)).getD (s.port.thid2asid.asid t) := by
  rw [written_of_slave (· = t) ofAddr_eq_asid_iff]
  change (s.port.thid2asid.next (s.port.thid2asidBus i.master)).asid t = _
  change _ = ((if (s.port.thid2asidBus i.master).write = true ∧ (s.port.thid2asidBus i.master).addr = t then
    some (s.port.thid2asidBus i.master).dataOut else none).map (BitVec.setWidth asidW)).getD _
  rw [CSRThid2asid.next]
  cases (s.port.thid2asidBus i.master).write with
  | false => simp
  | true =>
    by_cases hThread : (s.port.thid2asidBus i.master).addr = t
    · simp [hThread]
    · simp [hThread, Function.update_of_ne (Ne.symm hThread)]

theorem value_next (hW : params.thidW ≤ 10) (r : HostRegister params.thidW) : (s.next x i).value r = s.valueNext x i r := by
  cases r with
  | buffer word =>
    change half _ (ofColumns (BRAMTDP.writePort (BRAMTDP.writePort s.axi.transplantU.hostBuffer.mem
      (s.axi.transplantU.hostTransPort (s.unitInput x i))) (s.port.hostPort i.master) _)) = _
    rw [half_writePort, TransplantUnit.writePort_hostTransPort, valueNext,
      written_of_slave (fun line => bufferWord line = word) ofAddr_eq_buffer_iff, apply_ite ofColumns, ofColumns_columns]
    change _ = Option.getD (if (s.port.archstateBus i.master).write = true ∧ bufferWord (s.port.archstateBus i.master).addr = word
      then some (s.port.archstateBus i.master).dataOut else none) _
    split <;> rfl
  | asid thread => exact congrArg (BitVec.setWidth axiDataW) (asid_written thread)
  | trans2host => exact congrArg (SetCSR.next _ _) (written_csr hW (by decide : (0 : BitVec 2) ≠ 3) rfl)
  | pending => exact congrArg (ClearCSR.next _ _) (written_csr hW (by decide : (1 : BitVec 2) ≠ 3) rfl)
  | stopCPU => exact congrArg (ClearCSR.next _ _) (written_csr hW (by decide : (2 : BitVec 2) ≠ 3) rfl)

def addr (s : HostedPipeline params δ asidW) : BitVec csrAddrW := s.port.axilToCSR.addr.setWidth csrAddrW

/-- In front of the data of a read the slaves show what was there as the address was taken, and the threads what is there. -/
structure Answering (s : HostedPipeline params δ asidW) : Prop where
  odd : s.port.oddR = (archstateSlave.line 13 s.addr).getLsbD 0
  row : archstateSlave.hit s.addr = true → half s.port.oddR s.row = s.seen
  asid : s.port.thid2asid.dataInR =
    (s.port.thid2asid.asid ((thid2asidSlave params.thidW).line params.thidW s.addr)).setWidth axiDataW

def Transfer (s : HostedPipeline params δ asidW) (t : CSRTransfer csrAddrW) : Prop := s.bridge.Serves t

structure Inv (s : HostedPipeline params δ asidW) : Prop where
  bridge : ∃ t, s.Transfer t
  answering : s.port.axilToCSR.state = .sReadData → s.Answering

def Rule (s : HostedPipeline params δ asidW) (i : Input params) : Prop := s.bridge.Held i.master

instance : Decidable (s.Rule i) := inferInstanceAs (Decidable (WatchedCSR.Held _ _))

theorem asid_next (hWrite : (s.port.masterBus i.master).write = false) :
    (s.next x i).port.thid2asid.asid = s.port.thid2asid.asid ∧ (s.next x i).port.thid2asid.dataInR =
      (s.port.thid2asid.asid ((thid2asidSlave params.thidW).line params.thidW s.addr)).setWidth axiDataW := by
  refine ⟨if_neg ?_, rfl⟩
  change ¬ ((s.port.masterBus i.master).write && _) = true
  rw [hWrite]
  exact Bool.false_ne_true

theorem hostPort_off (hWrite : (s.port.masterBus i.master).write = false) (col : Fin 8) : (s.port.hostPort i.master).we col = false := by
  change (((s.port.masterBus i.master).write && _) && _) = false
  rw [hWrite]
  rfl

theorem valueAt_of_archstate {a : BitVec csrAddrW} (hHit : archstateSlave.hit a = true) :
    s.valueAt a = half ((archstateSlave.line 13 a).getLsbD 0)
      (ofColumns (s.axi.transplantU.hostBuffer.mem (rowOf (bufferWord (archstateSlave.line 13 a))))) := by
  rw [valueAt, ofAddr_of_archstate hHit, ← getLsbD_bufferWord params.thidW]
  rfl

theorem takes_ar {a : BitVec (csrAddrW + 2)} (hState : s.port.axilToCSR = WatchedCSR.flagged .sReadAddr a)
    (hAr : i.master.ar.isSome = true) : (s.port.masterBus i.master).write = false ∧ (s.next x i).addr = s.addr ∧
      (s.next x i).seen = s.valueAt s.addr := by
  refine ⟨by rw [masterBus, hState]; rfl, ?_, if_pos ?_⟩
  · change BitVec.setWidth _ (s.port.axilToCSR.next i.master).addr = BitVec.setWidth _ s.port.axilToCSR.addr
    rw [hState, WatchedCSR.next_flagged, hAr]
    rfl
  · change (s.port.axilToCSR.arFire i.master).isSome = true
    rw [hState]
    simp [WatchedCSR.flagged, hAr]

theorem awaits_r {a : BitVec (csrAddrW + 2)} (hState : s.port.axilToCSR = WatchedCSR.flagged .sReadData a)
    (hReady : i.master.rready = false) : (s.port.masterBus i.master).write = false ∧ (s.next x i).addr = s.addr ∧
      (s.next x i).seen = s.seen := by
  refine ⟨by rw [masterBus, hState]; rfl, ?_, if_neg ?_⟩
  · change BitVec.setWidth _ (s.port.axilToCSR.next i.master).addr = BitVec.setWidth _ s.port.axilToCSR.addr
    rw [hState, WatchedCSR.next_flagged, hReady]
    rfl
  · change ¬ (s.port.axilToCSR.arFire i.master).isSome = true
    rw [hState]
    simp [WatchedCSR.flagged]

theorem answering_of_ar {a : BitVec (csrAddrW + 2)} (hState : s.port.axilToCSR = WatchedCSR.flagged .sReadAddr a)
    (hAr : i.master.ar.isSome = true) : (s.next x i).Answering := by
  obtain ⟨hWrite, hAddr, hSeen⟩ := takes_ar (x := x) hState hAr
  have hRead : (s.port.masterBus i.master).read = true := by
    rw [masterBus, hState]
    simp [WatchedCSR.flagged, hAr]
  obtain ⟨hAsid, hShown⟩ := asid_next (x := x) hWrite
  refine ⟨by rw [hAddr]; rfl, fun hHit => ?_, by rw [hAddr, hAsid, hShown]⟩
  rw [hAddr] at hHit
  have hEn : (s.port.hostPort i.master).en = true := by
    change (((s.port.masterBus i.master).read && archstateSlave.hit s.addr) || _) = true
    rw [hRead, hHit]
    rfl
  have hRow : (s.next x i).row =
      ofColumns (s.axi.transplantU.hostBuffer.mem (rowOf (bufferWord (archstateSlave.line 13 s.addr)))) :=
    congrArg ofColumns (BRAMTDP.readPort_of_off _ _ hEn (hostPort_off hWrite) _)
  rw [hRow, hSeen, valueAt_of_archstate hHit]
  rfl

theorem answering_of_wait {a : BitVec (csrAddrW + 2)} (h : s.Answering) (hState : s.port.axilToCSR = WatchedCSR.flagged .sReadData a)
    (hReady : i.master.rready = false) : (s.next x i).Answering := by
  obtain ⟨hWrite, hAddr, hSeen⟩ := awaits_r (x := x) hState hReady
  have hRead : (s.port.masterBus i.master).read = false := by
    rw [masterBus, hState]
    simp [WatchedCSR.flagged, hReady]
  obtain ⟨hAsid, hShown⟩ := asid_next (x := x) hWrite
  refine ⟨by rw [hAddr]; rfl, fun hHit => ?_, by rw [hAddr, hAsid, hShown]⟩
  have hEn : (s.port.hostPort i.master).en = false := by
    change (((s.port.masterBus i.master).read && _) || ((s.port.masterBus i.master).write && _)) = false
    rw [hRead, hWrite]
    rfl
  have hRow : (s.next x i).row = s.row := congrArg ofColumns (funext fun col => by
    change BRAMTDP.readPort _ (s.port.hostPort i.master) _ col = _
    rw [BRAMTDP.readPort, hEn]
    rfl)
  have hOdd : (s.next x i).port.oddR = s.port.oddR := h.odd.symm
  rw [hAddr] at hHit
  rw [hRow, hSeen, hOdd]
  exact h.row hHit

theorem Inv.flagged (h : s.Inv) : ∃ state a, s.port.axilToCSR = WatchedCSR.flagged state a := by
  obtain ⟨t, hServes⟩ := h.bridge
  cases hServes <;> exact ⟨_, _, ‹_›⟩

theorem Inv.next (h : s.Inv) (hRule : s.Rule i) : (s.next x i).Inv := by
  obtain ⟨t, hServes⟩ := h.bridge
  obtain ⟨t', -, hServes'⟩ := WatchedCSR.serves_step (s.dataIn i) t hServes hRule
  refine ⟨⟨t', hServes'⟩, fun hData => ?_⟩
  change (s.port.axilToCSR.next i.master).state = .sReadData at hData
  obtain ⟨state, a, hState⟩ := h.flagged
  rw [hState] at hData
  rcases WatchedCSR.reads_of_next _ hData with ⟨rfl, hAr⟩ | ⟨rfl, hReady⟩
  · exact answering_of_ar hState hAr
  · exact answering_of_wait (h.answering (by rw [hState]; rfl)) hState hReady

theorem inv_reset (c : Contents params asidW) : (reset c : HostedPipeline params δ asidW).Inv where
  bridge := ⟨.idle, .idle 0 rfl⟩
  answering hState := by cases hState

variable (x) (s) (i) in
/-- What the host is promised of a cycle. -/
structure Atomic : Prop where
  /-- The data of a read: of a slot what was there as its address was taken, of the other registers what is there. -/
  read : ∀ data ∈ (s.ports i).r, ∀ a ∈ (s.ports i).read, data = if archstateSlave.hit a then s.seen else s.valueAt a
  next : ∀ r, (s.next x i).value r = s.valueNext x i r

theorem line_ne_three {a : BitVec csrAddrW} (hHit : transplantSlave.hit a = true) : transplantSlave.line 2 a ≠ 3 := by
  have hRange := of_decide_eq_true hHit
  intro hLine
  have hNat : ((2 ^ csrAddrW - 0x2400 % 2 ^ csrAddrW + a.toNat) % 2 ^ csrAddrW) % 2 ^ 2 = 3 := by
    have hNat := congrArg BitVec.toNat hLine
    rwa [CSRBusSlave.line, BitVec.toNat_setWidth, BitVec.toNat_sub, BitVec.toNat_ofNat] at hNat
  simp only [transplantSlave] at hRange
  have hWidth : 2 ^ csrAddrW = 16384 := rfl
  rw [hWidth] at hNat
  omega

theorem csr_of_line {k : BitVec 2} (hk : k ≠ 3) (default : BitVec axiDataW) :
    s.csr k = ((ofCsr k : Option (HostRegister params.thidW)).map s.value).getD default := by
  have hAll : ∀ l : BitVec 2, l = 0 ∨ l = 1 ∨ l = 2 ∨ l = 3 := by decide
  rcases hAll k with rfl | rfl | rfl | rfl
  · rfl
  · rfl
  · rfl
  · exact absurd rfl hk

theorem dataIn_eq (hW : params.thidW ≤ 10) (h : s.Answering) (hRead : (s.port.masterBus i.master).read = true) :
    s.dataIn i = if archstateSlave.hit s.addr then s.seen else s.valueAt s.addr := by
  change csrDataIn _ [(archstateSlave, half s.port.oddR s.row), (thid2asidSlave params.thidW, s.port.thid2asid.dataInR),
    (transplantSlave, if (s.port.transplantBus i.master).read then s.csr (transplantSlave.line 2 s.addr) else 0)] s.addr = _
  simp only [csrDataIn, List.foldl]
  cases hTransplant : transplantSlave.hit s.addr with
  | true =>
    have hBus : (s.port.transplantBus i.master).read = true := by
      change ((s.port.masterBus i.master).read && transplantSlave.hit s.addr) = true
      rw [hRead, hTransplant]
      rfl
    rw [if_pos rfl, if_pos hBus, archstate_not_hit params.thidW (.inr hTransplant), if_neg (by decide), valueAt,
      ofAddr_of_transplant hW hTransplant]
    exact csr_of_line (line_ne_three hTransplant) _
  | false =>
    rw [if_neg (by decide)]
    cases hThid : (thid2asidSlave params.thidW).hit s.addr with
    | true =>
      rw [if_pos rfl, archstate_not_hit params.thidW (.inl hThid), if_neg (by decide), valueAt, ofAddr_of_thid2asid hThid, h.asid]
      rfl
    | false =>
      rw [if_neg (by decide)]
      cases hArchstate : archstateSlave.hit s.addr with
      | true => rw [if_pos rfl, if_pos rfl, h.row hArchstate]
      | false => rw [if_neg (by decide), if_neg (by decide), valueAt, ofAddr_of_none hArchstate hThid hTransplant]; rfl

theorem Inv.atomic (hW : params.thidW ≤ 10) (h : s.Inv) : s.Atomic x i := by
  refine ⟨fun data hData a hAddr => ?_, value_next hW⟩
  obtain ⟨hFire, hIn⟩ := Option.ite_none_right_eq_some.mp hData
  obtain ⟨hRead, hName⟩ := Option.ite_none_right_eq_some.mp hAddr
  obtain ⟨state, b, hState⟩ := h.flagged
  have hValid : s.port.axilToCSR.rvalid = true := (Bool.and_eq_true_iff.mp hFire).2
  rw [← Option.some.inj hIn, ← Option.some.inj hName]
  refine dataIn_eq hW (h.answering ?_) hRead
  rw [hState] at hValid ⊢
  exact of_decide_eq_true hValid

variable (x) in
/-- In every run of a host that shows its addresses until they are taken, its transfers are served one after the other and
every one of them is atomic: a write changes its own register, in the cycle of its data, and no other; a read has the value
that its register has in one cycle of the transfer; and otherwise registers change by what the unit does alone. -/
theorem registers_atomic (hW : params.thidW ≤ 10) (c : Contents params asidW) {is : List (Input params)}
    (hRule : (machine x).Along Rule (reset c) is) :
    Machine.Accepts CSRCycle .idle ((machine x).trace (reset c) is) ∧ (machine x).Along (Atomic x) (reset c) is := by
  constructor
  · have hStart : (reset c : HostedPipeline params δ asidW).Transfer .idle := .idle 0 rfl
    exact hRule.accepts hStart fun s t i hServes h => WatchedCSR.serves_step (s.dataIn i) t hServes h
  · exact hRule.of_invariant (inv_reset c) (fun _ _ (h : Inv _) hHeld => h.next hHeld) fun _ _ (h : Inv _) _ => h.atomic hW

end Cycle

section TwoThreads

open WatchedPipeline PipelineAxi

def hosted (m : AXI4LiteMaster (csrAddrW + 2) axiDataW) : Input twoThreads :=
  ⟨m, quietPort, quietPort, fun _ => none, ⟨fun _ => 0, ⟨0, 0⟩⟩⟩

def writeWord (addr : BitVec (csrAddrW + 2)) (data : BitVec axiDataW) : List (Input twoThreads) :=
  [hosted ⟨some addr, some data, true, none, true⟩, hosted ⟨some addr, some data, true, none, true⟩,
    hosted ⟨none, some data, true, none, true⟩, hosted ⟨none, none, true, none, true⟩]

def readWord (addr : BitVec (csrAddrW + 2)) : List (Input twoThreads) :=
  [hosted ⟨none, none, true, some addr, true⟩, hosted ⟨none, none, true, some addr, true⟩, hosted ⟨none, none, true, none, true⟩]

/-- The host fills half of X0 of thread 1, registers it with process 3, starts it, and reads what it has written. The start bit
is gone by then. -/
def filled : List (Input twoThreads) :=
  writeWord 0x200 5 ++ writeWord 0x8004 3 ++ writeWord 0x9004 2 ++ readWord 0x200 ++ readWord 0x8004 ++ readWord 0x9004

theorem registers_atomic_filled :
    (machine (loads false)).Along (Atomic (loads false)) (reset ⟨powerUpOf 1, 0⟩ : HostedPipeline twoThreads Unit 2) filled ∧
    (machine (loads false)).emitted CSRPorts.r (reset ⟨powerUpOf 1, 0⟩ : HostedPipeline twoThreads Unit 2) filled = [5, 3, 0] :=
  ⟨(registers_atomic (loads false) (by decide) ⟨powerUpOf 1, 0⟩ (by decide +kernel)).2, by decide +kernel⟩

end TwoThreads

end HostedPipeline

end KnockoutKraken.Armflex
