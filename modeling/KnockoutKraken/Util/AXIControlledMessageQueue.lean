import KnockoutKraken.Library.Machine
import KnockoutKraken.Util.FlushQueue

/-!
# The message queue on the bus

A read transfer pops one message and a write transfer pushes one; the two
directions and the status register are apart from each other. A read is
under way from its address to its data, a write from its address over its
data to its response.
-/

namespace KnockoutKraken.Util

open Library

inductive AxiWriteState where
  | sAXI_AW | sAXI_W | sAXI_B
deriving DecidableEq

abbrev AxiId := BitVec 6

abbrev Message := BitVec 512

structure AXIControlledMessageQueue where
  addrR : BitVec 3
  addrVR : Bool
  axiRidR : AxiId
  axiRv : Bool
  axiWidR : AxiId
  axiWStateR : AxiWriteState
deriving DecidableEq

namespace AXIControlledMessageQueue

open AxiWriteState

structure Input where
  fifoI : Option Message
  fifoOReady : Bool
  axilAr : Option (BitVec 32)
  axilRReady : Bool
  ar : Option AxiId
  rReady : Bool
  aw : Option AxiId
  /-- The data, and whether it is the last beat. -/
  w : Option (Message × Bool)
  bReady : Bool

structure Output where
  fifoI : Option Message
  fifoO : Option Message
  axilR : Option (BitVec 32)
  ar : Option AxiId
  r : Option (AxiId × Message)
  aw : Option AxiId
  w : Option Message
  b : Option AxiId

/-- The registers of the identifiers have no reset value. -/
def reset (rid wid : AxiId) : AXIControlledMessageQueue := ⟨0, false, rid, false, wid, sAXI_AW⟩

variable (q : AXIControlledMessageQueue) (i : Input)

def axilArReady : Bool := !q.addrVR

def axilRData : BitVec 32 := (BitVec.ofBool (if q.addrR.getLsbD 2 then i.fifoI.isSome else i.fifoOReady)).setWidth 32

def arReady : Bool := !q.axiRv

def r : Option (AxiId × Message) := if q.axiRv then i.fifoI.map fun message => (q.axiRidR, message) else none

def fifoIReady : Bool := q.axiRv && i.rReady

def awReady : Bool := decide (q.axiWStateR = sAXI_AW)

def wReady : Bool := decide (q.axiWStateR = sAXI_W) && i.fifoOReady

def fifoO : Option Message := if q.axiWStateR = sAXI_W then i.w.map (·.1) else none

def b : Option AxiId := if q.axiWStateR = sAXI_B then some q.axiWidR else none

def output : Output where
  fifoI := if q.fifoIReady i then i.fifoI else none
  fifoO := if i.fifoOReady then q.fifoO i else none
  axilR := if q.addrVR && i.axilRReady then some (q.axilRData i) else none
  ar := if q.arReady then i.ar else none
  r := if i.rReady then q.r i else none
  aw := if q.awReady then i.aw else none
  w := if q.wReady i then i.w.map (·.1) else none
  b := if i.bReady then q.b else none

def axiWStateNext : AxiWriteState :=
  match q.axiWStateR with
  | sAXI_AW => if (q.awReady && i.aw.isSome) = true then sAXI_W else sAXI_AW
  | sAXI_W => if (q.wReady i && i.w.any (·.2)) = true then sAXI_B else sAXI_W
  | sAXI_B => if i.bReady then sAXI_AW else sAXI_B

def next : AXIControlledMessageQueue where
  addrR := if q.axilArReady then (i.axilAr.map (·.setWidth 3)).getD q.addrR else q.addrR
  addrVR :=
    if (q.axilArReady && i.axilAr.isSome) = true then true
    else if (i.axilRReady && q.addrVR) = true then false
    else q.addrVR
  axiRidR := if q.arReady then i.ar.getD q.axiRidR else q.axiRidR
  axiRv :=
    if ((q.r i).isSome && i.rReady) = true then false
    else if (q.arReady && i.ar.isSome) = true then true
    else q.axiRv
  axiWidR := if q.awReady then i.aw.getD q.axiWidR else q.axiWidR
  axiWStateR := q.axiWStateNext i

def machine : Machine AXIControlledMessageQueue Input Output where
  next := next
  output := output

/-- The reads whose address was taken and whose data was not. -/
def reading : List AxiId := if q.axiRv then [q.axiRidR] else []

/-- The writes whose address was taken and whose response was not. -/
def writing : List AxiId := if q.axiWStateR = sAXI_AW then [] else [q.axiWidR]

def unanswered : Nat := if q.axiWStateR = sAXI_B then 1 else 0

/-- A write transfer has one beat. -/
def SingleBeat (_ : AXIControlledMessageQueue) (i : Input) : Prop := i.w.all (·.2) = true

section Step

theorem popped_eq : (q.output i).fifoI = (q.output i).r.map (·.2) := by
  rw [output, fifoIReady, r]
  cases q.axiRv <;> cases i.rReady <;> cases i.fifoI <;> rfl

theorem pushed_eq : (q.output i).fifoO = (q.output i).w := by
  rw [output, wReady, fifoO]
  cases q.axiWStateR <;> cases i.fifoOReady <;> rfl

theorem reading_next : ((q.output i).r.map (·.1)).toList ++ (q.next i).reading = q.reading ++ (q.output i).ar.toList := by
  obtain ⟨addrR, addrVR, axiRidR, axiRv, axiWidR, axiWStateR⟩ := q
  obtain ⟨fifoI, fifoOReady, axilAr, axilRReady, ar, rReady, aw, w, bReady⟩ := i
  cases axiRv <;> cases rReady <;> cases fifoI <;> cases ar <;> rfl

theorem writing_next : (q.output i).b.toList ++ (q.next i).writing = q.writing ++ (q.output i).aw.toList := by
  obtain ⟨addrR, addrVR, axiRidR, axiRv, axiWidR, axiWStateR⟩ := q
  obtain ⟨fifoI, fifoOReady, axilAr, axilRReady, ar, rReady, aw, w, bReady⟩ := i
  cases axiWStateR with
  | sAXI_AW => cases aw <;> cases bReady <;> rfl
  | sAXI_W =>
    cases w with
    | none => cases fifoOReady <;> cases bReady <;> rfl
    | some beat =>
      obtain ⟨data, last⟩ := beat
      cases last <;> cases fifoOReady <;> cases bReady <;> rfl
  | sAXI_B => cases bReady <;> rfl

variable {q} {i}

theorem unanswered_next (h : SingleBeat q i) :
    (q.next i).unanswered + (q.output i).b.toList.length = q.unanswered + (q.output i).w.toList.length := by
  obtain ⟨addrR, addrVR, axiRidR, axiRv, axiWidR, axiWStateR⟩ := q
  obtain ⟨fifoI, fifoOReady, axilAr, axilRReady, ar, rReady, aw, w, bReady⟩ := i
  cases axiWStateR with
  | sAXI_AW => cases aw <;> cases bReady <;> cases fifoOReady <;> rfl
  | sAXI_W =>
    cases w with
    | none => cases bReady <;> cases fifoOReady <;> rfl
    | some beat =>
      obtain ⟨data, last⟩ := beat
      obtain rfl : last = true := h
      cases bReady <;> cases fifoOReady <;> rfl
  | sAXI_B => cases bReady <;> cases fifoOReady <;> rfl

end Step

section Run

variable {q} in
theorem unanswered_run {is : List Input} (h : machine.Along SingleBeat q is) :
    (machine.run q is).unanswered + (machine.emitted (·.b) q is).length =
      q.unanswered + (machine.emitted (·.w) q is).length := by
  induction is generalizing q with
  | nil => rfl
  | cons i is ih =>
    have hStep := unanswered_next h.1
    have hRest := ih h.2
    simp only [Machine.emitted_cons, Machine.run_cons, List.length_append, machine] at hRest ⊢
    omega

end Run

/-- Whatever the handshakes, in every run from reset with write transfers of one beat: the popped
messages are the data of the reads, in order, and the reads have the identifiers of their
addresses; the pushed messages are the beats taken, in order, and the responses have the
identifiers of their addresses, one for each beat that was taken. -/
theorem delivery (rid wid : AxiId) (is : List Input) (h : machine.Along SingleBeat (reset rid wid) is) :
    machine.emitted (·.fifoI) (reset rid wid) is = (machine.emitted (·.r) (reset rid wid) is).map (·.2) ∧
    (machine.emitted (·.r) (reset rid wid) is).map (·.1) ++ (machine.run (reset rid wid) is).reading =
      machine.emitted (·.ar) (reset rid wid) is ∧
    machine.emitted (·.fifoO) (reset rid wid) is = machine.emitted (·.w) (reset rid wid) is ∧
    machine.emitted (·.b) (reset rid wid) is ++ (machine.run (reset rid wid) is).writing =
      machine.emitted (·.aw) (reset rid wid) is ∧
    (machine.run (reset rid wid) is).unanswered + (machine.emitted (·.b) (reset rid wid) is).length =
      (machine.emitted (·.w) (reset rid wid) is).length := by
  refine ⟨?_, ?_, Machine.emitted_congr pushed_eq _ is, Machine.emitted_conserves writing writing_next _ is, ?_⟩
  · rw [← Machine.emitted_map]
    exact Machine.emitted_congr popped_eq _ is
  · rw [← Machine.emitted_map]
    exact Machine.emitted_conserves reading reading_next _ is
  · exact (unanswered_run h).trans (Nat.zero_add _)

/-- A read and a write at the same time, the message and the place for the beat coming late. -/
def crossing : List Input := [
  ⟨none, true, some 4, true, some 9, true, some 5, some (7, true), true⟩,
  ⟨none, false, none, true, some 10, true, some 6, some (7, true), true⟩,
  ⟨some 3, true, none, false, some 10, true, some 6, some (7, true), false⟩,
  ⟨some 4, false, none, true, none, true, none, none, true⟩]

theorem delivery_crossing : machine.emitted (·.r) (reset 0 0) crossing = [(9, 3)] ∧
    machine.emitted (·.fifoI) (reset 0 0) crossing = [3] ∧ machine.emitted (·.fifoO) (reset 0 0) crossing = [7] ∧
    machine.emitted (·.b) (reset 0 0) crossing ++ (machine.run (reset 0 0) crossing).writing = [5] := by
  have hAll := delivery 0 0 crossing ⟨rfl, rfl, rfl, rfl, trivial⟩
  exact ⟨by rfl, hAll.1, hAll.2.2.1, hAll.2.2.2.1⟩

end AXIControlledMessageQueue

end KnockoutKraken.Util
