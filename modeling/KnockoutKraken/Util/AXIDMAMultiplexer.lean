import KnockoutKraken.Antmicro.Frontend
import KnockoutKraken.Library.Arbiter
import KnockoutKraken.Library.Machine

/-!
# Transfers of several masters

The masters share one reader and one writer. The arbiter selects a
request, and a register remembers the master whose transfer is under way:
it steers the beats and the end of the transfer. What the masters and the
bus see is that of one transfer after another, each at the address and
with the length that its master asked for.
-/

namespace KnockoutKraken.Util

open Library Antmicro

universe u

section Spec

/-- What the masters and the bus see in a cycle: the requests, those taken, the beats, and the ends told. -/
structure DMAPorts (n addrW : Nat) (δ : Type u) where
  request : Fin (n + 1) → Option (Xfer addrW)
  granted : Fin (n + 1) → Bool
  beat : Fin (n + 1) → Option δ
  done : Fin (n + 1) → Bool
  /-- The address and the length that the bus takes. -/
  busAddr : Option (BitVec addrW × BitVec lenWidth)
  busBeat : Option δ
  /-- The bus ends the transfer. -/
  busEnd : Bool

/-- The way whose request was taken, and whether the bus has ended its transfer. -/
structure Transfer (n : Nat) where
  way : Fin (n + 1)
  ended : Bool

variable {n addrW : Nat} {δ : Type u}

def only (way : Fin (n + 1)) (i : Fin (n + 1)) : Bool := decide (i = way)

/-- A cycle in which no beat moves. -/
def DMAPorts.Still (o : DMAPorts n addrW δ) : Prop := o.busBeat = none ∧ ∀ i, o.beat i = none

/-- The cycles of transfers one at a time. -/
inductive TransferCycle : Option (Transfer n) → DMAPorts n addrW δ → Option (Transfer n) → Prop
  | idle {o} : o.granted = (fun _ => false) → o.Still → o.done = (fun _ => false) → TransferCycle none o none
  | grant {o} (way) : o.granted = only way → o.Still → o.done = (fun _ => false) → TransferCycle none o (some ⟨way, false⟩)
  | transfer {o} (way) : o.granted = (fun _ => false) → (∀ i, o.beat i = if only way i then o.busBeat else none) →
      o.done = (fun _ => false) → TransferCycle (some ⟨way, false⟩) o (some ⟨way, o.busEnd⟩)
  | done {o} (way) : o.granted = (fun _ => false) → o.Still → o.done = only way → TransferCycle (some ⟨way, true⟩) o none

/-- A sequence of cycles is transfers one at a time, the last of which may be under way. -/
def Isolated (os : List (DMAPorts n addrW δ)) : Prop := Machine.Accepts TransferCycle none os

def burst (xfer : Xfer addrW) : BitVec addrW × BitVec lenWidth := (xfer.address, (xfer.length - 1).setWidth lenWidth)

/-- The cycles of addresses: the bus takes that of a request once, before the next request is taken. -/
inductive AddressCycle : Option (Xfer addrW) → DMAPorts n addrW δ → Option (Xfer addrW) → Prop
  | quiet {o} (pending) : o.granted = (fun _ => false) → o.busAddr = none → AddressCycle pending o pending
  | grant {o} (way xfer) : o.granted = only way → o.request way = some xfer → o.busAddr = none → AddressCycle none o (some xfer)
  | address {o} (xfer) : o.granted = (fun _ => false) → o.busAddr = some (burst xfer) → AddressCycle (some xfer) o none

/-- The bus is told the addresses and the lengths of the requests taken, in their order. -/
def AddressedInOrder (os : List (DMAPorts n addrW δ)) : Prop := Machine.Accepts AddressCycle none os

end Spec

variable {n addrW : Nat} {δ : Type u}

/-- The arbiter in front of the engine and the register of the way it served. -/
structure Selector (n : Nat) where
  lastGrant : Fin (n + 1)
  indexR : Fin (n + 1)
  indexVR : Bool
deriving DecidableEq

namespace Selector

variable (s : Selector n) (req : Fin (n + 1) → Option (Xfer addrW)) (xferReady xferDone : Bool)

def valid (i : Fin (n + 1)) : Bool := (req i).isSome

def chosen : Fin (n + 1) := RRArbiter.chosen (valid req) s.lastGrant

def selectedReq : Option (Xfer addrW) := req (s.chosen req)

def fire : Bool := (s.selectedReq req).isSome && xferReady

def reqReady (i : Fin (n + 1)) : Bool := RRArbiter.grant (valid req) s.lastGrant i && xferReady

def granted (i : Fin (n + 1)) : Bool := valid req i && s.reqReady req xferReady i

def next : Selector n where
  lastGrant := RRArbiter.next (valid req) s.lastGrant xferReady
  indexR := if s.fire req xferReady then s.chosen req else s.indexR
  indexVR := if xferDone then false else if s.fire req xferReady then true else s.indexVR

theorem granted_eq (hFire : s.fire req xferReady = true) : s.granted req xferReady = only (s.chosen req) := by
  obtain ⟨hValid, hReady⟩ := Bool.and_eq_true_iff.mp hFire
  funext i
  rw [only, granted, reqReady, hReady, Bool.and_true]
  cases hi : valid req i with
  | true =>
    rw [Bool.true_and, Bool.eq_iff_iff, decide_eq_true_iff, ← RRArbiter.chosen_eq_iff_grant s.lastGrant hi]
    exact eq_comm
  | false =>
    symm
    apply decide_eq_false
    rintro rfl
    rw [valid] at hi
    rw [selectedReq, hi] at hValid
    cases hValid

theorem granted_of_not_fire (hFire : s.fire req xferReady = false) : s.granted req xferReady = fun _ => false := by
  funext i
  by_contra hGranted
  obtain ⟨hi, hReady⟩ := Bool.and_eq_true_iff.mp (Bool.not_eq_false _ ▸ hGranted : s.granted req xferReady i = true)
  obtain ⟨hGrant, hXfer⟩ := Bool.and_eq_true_iff.mp hReady
  have hChosen : s.chosen req = i := (RRArbiter.chosen_eq_iff_grant s.lastGrant hi).mpr hGrant
  have hValid : (s.selectedReq req).isSome = true := by rw [selectedReq, hChosen]; exact hi
  rw [fire, hValid, hXfer] at hFire
  cases hFire

end Selector

structure AXIReadMultiplexer (n addrW : Nat) where
  sel : Selector n
  reader : AXI4Reader addrW

namespace AXIReadMultiplexer

structure Input (n addrW : Nat) (δ : Type u) where
  req : Fin (n + 1) → Option (Xfer addrW)
  dataReady : Fin (n + 1) → Bool
  arready : Bool
  r : Option (δ × Bool)

/-- The last grant of the arbiter has no reset value. -/
def reset (lastGrant : Fin (n + 1)) : AXIReadMultiplexer n addrW := ⟨⟨lastGrant, 0, false⟩, .reset⟩

variable (s : AXIReadMultiplexer n addrW) (i : Input n addrW δ)

def readerInput : AXI4Reader.Input addrW δ where
  xfer := s.sel.selectedReq i.req
  dataOutReady := i.dataReady s.sel.indexR
  arready := i.arready
  r := i.r

def dataValid (way : Fin (n + 1)) : Option δ := if only way s.sel.indexR then s.reader.dataOut i.r else none

def output : DMAPorts n addrW δ where
  request := i.req
  granted := s.sel.granted i.req s.reader.xferReady
  beat way := if i.dataReady way then s.dataValid i way else none
  done way := s.reader.xferDone && only way s.sel.indexR
  busAddr := if s.reader.arvalid && i.arready then some (s.reader.araddr, s.reader.arlen) else none
  busBeat := if s.reader.ready (s.readerInput i) then i.r.map (·.1) else none
  busEnd := s.reader.takesLast (s.readerInput i)

def next : AXIReadMultiplexer n addrW where
  sel := s.sel.next i.req s.reader.xferReady s.reader.xferDone
  reader := s.reader.next (s.readerInput i)

def machine (n addrW : Nat) (δ : Type u) : Machine (AXIReadMultiplexer n addrW) (Input n addrW δ) (DMAPorts n addrW δ) where
  next := next
  output := output

/-- The transfer that the reader is in belongs to the way in the register. -/
def Serves (s : AXIReadMultiplexer n addrW) : Option (Transfer n) → Prop
  | none => s.reader.state = .sIdle ∧ s.reader.enable = false
  | some ⟨way, false⟩ => s.sel.indexR = way ∧
      (s.reader.state = .sAddr ∧ s.reader.enable = false ∨ s.reader.state = .sTransfer ∧ s.reader.enable = true)
  | some ⟨way, true⟩ => s.sel.indexR = way ∧ s.reader.state = .sDone ∧ s.reader.enable = false

section Step

variable {s} {i}

theorem still_of_disabled (h : s.reader.enable = false) : (s.output i).Still := by
  refine ⟨by simp [output, AXI4Reader.ready, h], fun way => ?_⟩
  simp [output, dataValid, AXI4Reader.dataOut, h]

theorem beat_eq (way : Fin (n + 1)) : (s.output i).beat way = if only s.sel.indexR way then (s.output i).busBeat else none := by
  rcases eq_or_ne way s.sel.indexR with rfl | hOther
  · cases hEnable : s.reader.enable <;>
      simp [output, dataValid, only, readerInput, AXI4Reader.ready, AXI4Reader.dataOut, hEnable]
  · simp [output, dataValid, only, hOther, hOther.symm]

theorem keeps_index (h : s.reader.state ≠ .sIdle) :
    (s.next i).sel.indexR = s.sel.indexR ∧ (s.output i).granted = fun _ => false := by
  have hBusy : s.reader.xferReady = false := decide_eq_false h
  have hFire : s.sel.fire i.req s.reader.xferReady = false := by rw [Selector.fire, hBusy, Bool.and_false]
  exact ⟨by simp [next, Selector.next, hFire], Selector.granted_of_not_fire _ _ _ hFire⟩

theorem done_eq (h : s.reader.state ≠ .sDone) : (s.output i).done = fun _ => false := by
  have hDone : s.reader.xferDone = false := decide_eq_false h
  funext way
  simp [output, hDone]

variable (s) (i) in
theorem serves_step (t : Option (Transfer n)) (h : s.Serves t) :
    ∃ t', TransferCycle t (s.output i) t' ∧ (s.next i).Serves t' := by
  match t with
  | none =>
    obtain ⟨hState, hEnable⟩ := h
    have hDone := done_eq (i := i) (by rw [hState]; exact ReaderState.noConfusion : s.reader.state ≠ .sDone)
    cases hFire : s.sel.fire i.req s.reader.xferReady with
    | true =>
      obtain ⟨xfer, hXfer⟩ := Option.isSome_iff_exists.mp (Bool.and_eq_true_iff.mp hFire).1
      refine ⟨_, .grant (s.sel.chosen i.req) (Selector.granted_eq _ _ _ hFire) (still_of_disabled hEnable) hDone, ?_, .inl ?_⟩
      · simp [next, Selector.next, hFire]
      · simp [next, AXI4Reader.next, hState, readerInput, hXfer, hEnable]
    | false =>
      have hNone : s.sel.selectedReq i.req = none := by
        simpa [Selector.fire, AXI4Reader.xferReady, hState] using hFire
      refine ⟨_, .idle (Selector.granted_of_not_fire _ _ _ hFire) (still_of_disabled hEnable) hDone, ?_⟩
      simp [Serves, next, AXI4Reader.next, hState, readerInput, hNone, hEnable]
  | some ⟨way, false⟩ =>
    obtain ⟨rfl, hPhase⟩ := h
    have hBusy : s.reader.state ≠ .sIdle := by rcases hPhase with h | h <;> rw [h.1] <;> exact ReaderState.noConfusion
    have hNotDone : s.reader.state ≠ .sDone := by rcases hPhase with h | h <;> rw [h.1] <;> exact ReaderState.noConfusion
    obtain ⟨hIndex, hGranted⟩ := keeps_index (i := i) hBusy
    refine ⟨_, .transfer s.sel.indexR hGranted beat_eq (done_eq hNotDone), ?_⟩
    rcases hPhase with ⟨hState, hEnable⟩ | ⟨hState, hEnable⟩
    · have hEnd : (s.output i).busEnd = false := by simp [output, AXI4Reader.takesLast, AXI4Reader.ready, hEnable]
      rw [hEnd]
      refine ⟨hIndex, ?_⟩
      simp only [next, AXI4Reader.next, hState]
      split
      · exact .inr ⟨rfl, rfl⟩
      · exact .inl ⟨hState, hEnable⟩
    · have hTakes : s.reader.takesLast (s.readerInput i) = (s.output i).busEnd := rfl
      cases hEnd : (s.output i).busEnd <;> refine ⟨hIndex, ?_⟩ <;> simp [next, AXI4Reader.next, hState, hTakes, hEnd, hEnable]
  | some ⟨way, true⟩ =>
    obtain ⟨rfl, hState, hEnable⟩ := h
    have hBusy : s.reader.state ≠ .sIdle := by rw [hState]; exact ReaderState.noConfusion
    have hDone : (s.output i).done = only s.sel.indexR := by
      funext way
      have hXfer : s.reader.xferDone = true := decide_eq_true hState
      exact (congrArg (· && only way s.sel.indexR) hXfer).trans (decide_eq_decide.mpr eq_comm)
    refine ⟨_, .done s.sel.indexR (keeps_index hBusy).2 (still_of_disabled hEnable) hDone, ?_⟩
    simp [Serves, next, AXI4Reader.next, hState, hEnable]

/-- The address registers hold the request whose address the bus has not taken. -/
def Announces (s : AXIReadMultiplexer n addrW) : Option (Xfer addrW) → Prop
  | none => s.reader.state ≠ .sAddr ∧ s.reader.arvalid = false
  | some xfer => s.reader.state = .sAddr ∧ s.reader.arvalid = true ∧ (s.reader.araddr, s.reader.arlen) = burst xfer

variable (s) (i) in
theorem announces_step (pending : Option (Xfer addrW)) (h : s.Announces pending) :
    ∃ pending', AddressCycle pending (s.output i) pending' ∧ (s.next i).Announces pending' := by
  match pending with
  | none =>
    obtain ⟨hState, hValid⟩ := h
    have hQuiet : (s.output i).busAddr = none := by simp [output, hValid]
    cases hFire : s.sel.fire i.req s.reader.xferReady with
    | true =>
      obtain ⟨hSome, hIdle⟩ := Bool.and_eq_true_iff.mp hFire
      obtain ⟨xfer, hXfer⟩ := Option.isSome_iff_exists.mp hSome
      have hIdle : s.reader.state = .sIdle := of_decide_eq_true hIdle
      refine ⟨_, .grant (s.sel.chosen i.req) xfer (Selector.granted_eq _ _ _ hFire) hXfer hQuiet, ?_⟩
      simp [Announces, next, AXI4Reader.next, hIdle, readerInput, hXfer, burst]
    | false =>
      refine ⟨_, .quiet none (Selector.granted_of_not_fire _ _ _ hFire) hQuiet, ?_⟩
      cases hPhase : s.reader.state with
      | sIdle =>
        have hNone : s.sel.selectedReq i.req = none := by
          simpa [Selector.fire, AXI4Reader.xferReady, hPhase] using hFire
        simp [Announces, next, AXI4Reader.next, hPhase, readerInput, hNone, hValid]
      | sAddr => exact absurd hPhase hState
      | sTransfer =>
        cases hLast : s.reader.takesLast (s.readerInput i) <;> simp [Announces, next, AXI4Reader.next, hPhase, hLast, hValid]
      | sDone => simp [Announces, next, AXI4Reader.next, hPhase, hValid]
  | some xfer =>
    obtain ⟨hState, hValid, hBurst⟩ := h
    have hGranted := (keeps_index (i := i) (by rw [hState]; exact ReaderState.noConfusion : s.reader.state ≠ .sIdle)).2
    cases hReady : i.arready with
    | true =>
      refine ⟨_, .address xfer hGranted (by simp [output, hValid, hReady, hBurst]), ?_⟩
      simp [Announces, next, AXI4Reader.next, hState, hValid, readerInput, hReady]
    | false =>
      refine ⟨_, .quiet (some xfer) hGranted (by simp [output, hReady]), ?_⟩
      simp [Announces, next, AXI4Reader.next, hState, hValid, readerInput, hReady, hBurst]

end Step

end AXIReadMultiplexer

structure AXIWriteMultiplexer (n addrW : Nat) where
  sel : Selector n
  writer : AXI4Writer addrW

namespace AXIWriteMultiplexer

structure Input (n addrW : Nat) (δ : Type u) where
  req : Fin (n + 1) → Option (Xfer addrW)
  data : Fin (n + 1) → Option δ
  awready : Bool
  wready : Bool
  bvalid : Bool

def reset (lastGrant : Fin (n + 1)) : AXIWriteMultiplexer n addrW := ⟨⟨lastGrant, 0, false⟩, .reset⟩

variable (s : AXIWriteMultiplexer n addrW) (i : Input n addrW δ)

def writerInput : AXI4Writer.Input addrW δ where
  xfer := s.sel.selectedReq i.req
  dataIn := i.data s.sel.indexR
  awready := i.awready
  wready := i.wready
  bvalid := i.bvalid

def dataReady (way : Fin (n + 1)) : Bool := s.writer.dataInReady i.wready && only way s.sel.indexR

def output : DMAPorts n addrW δ where
  request := i.req
  granted := s.sel.granted i.req s.writer.xferReady
  beat way := if s.dataReady i way then i.data way else none
  done way := s.writer.xferDone && only way s.sel.indexR
  busAddr := if s.writer.awvalid && i.awready then some (s.writer.awaddr, s.writer.awlen.setWidth lenWidth) else none
  busBeat := if i.wready then (s.writer.w (i.data s.sel.indexR)).map (·.1) else none
  busEnd := s.writer.takesResp i.bvalid

def next : AXIWriteMultiplexer n addrW where
  sel := s.sel.next i.req s.writer.xferReady s.writer.xferDone
  writer := s.writer.next (s.writerInput i)

def machine (n addrW : Nat) (δ : Type u) : Machine (AXIWriteMultiplexer n addrW) (Input n addrW δ) (DMAPorts n addrW δ) where
  next := next
  output := output

/-- The transfer that the writer is in belongs to the way in the register. -/
def Serves (s : AXIWriteMultiplexer n addrW) : Option (Transfer n) → Prop
  | none => s.writer.dataState = .sDataIdle ∧ s.writer.enable = false
  | some ⟨way, false⟩ => s.sel.indexR = way ∧
      (s.writer.dataState = .sDataTransfer ∧ s.writer.enable = true ∨
        s.writer.dataState = .sDataResp ∧ s.writer.enable = false ∧ s.writer.bready = true)
  | some ⟨way, true⟩ => s.sel.indexR = way ∧ s.writer.dataState = .sDataDone ∧ s.writer.enable = false

section Step

variable {s} {i}

theorem still_of_disabled (h : s.writer.enable = false) : (s.output i).Still := by
  refine ⟨by simp [output, AXI4Writer.w, h], fun way => ?_⟩
  simp [output, dataReady, AXI4Writer.dataInReady, h]

theorem beat_eq (way : Fin (n + 1)) : (s.output i).beat way = if only s.sel.indexR way then (s.output i).busBeat else none := by
  rcases eq_or_ne way s.sel.indexR with rfl | hOther
  · cases hEnable : s.writer.enable <;> cases hReady : i.wready <;> cases hData : i.data s.sel.indexR <;>
      simp [output, dataReady, only, AXI4Writer.dataInReady, AXI4Writer.w, hEnable, hReady, hData]
  · simp [output, dataReady, only, hOther, hOther.symm]

theorem keeps_index (h : s.writer.dataState ≠ .sDataIdle) :
    (s.next i).sel.indexR = s.sel.indexR ∧ (s.output i).granted = fun _ => false := by
  have hBusy : s.writer.xferReady = false := decide_eq_false h
  have hFire : s.sel.fire i.req s.writer.xferReady = false := by rw [Selector.fire, hBusy, Bool.and_false]
  exact ⟨by simp [next, Selector.next, hFire], Selector.granted_of_not_fire _ _ _ hFire⟩

theorem done_eq (h : s.writer.dataState ≠ .sDataDone) : (s.output i).done = fun _ => false := by
  have hDone : s.writer.xferDone = false := decide_eq_false h
  funext way
  simp [output, hDone]

variable (s) (i) in
theorem serves_step (t : Option (Transfer n)) (h : s.Serves t) :
    ∃ t', TransferCycle t (s.output i) t' ∧ (s.next i).Serves t' := by
  match t with
  | none =>
    obtain ⟨hState, hEnable⟩ := h
    have hDone := done_eq (i := i) (by rw [hState]; exact DataState.noConfusion : s.writer.dataState ≠ .sDataDone)
    cases hFire : s.sel.fire i.req s.writer.xferReady with
    | true =>
      obtain ⟨xfer, hXfer⟩ := Option.isSome_iff_exists.mp (Bool.and_eq_true_iff.mp hFire).1
      refine ⟨_, .grant (s.sel.chosen i.req) (Selector.granted_eq _ _ _ hFire) (still_of_disabled hEnable) hDone, ?_, .inl ?_⟩
      · simp [next, Selector.next, hFire]
      · simp [next, AXI4Writer.next, AXI4Writer.nextData, hState, writerInput, hXfer]
    | false =>
      have hNone : s.sel.selectedReq i.req = none := by
        simpa [Selector.fire, AXI4Writer.xferReady, hState] using hFire
      refine ⟨_, .idle (Selector.granted_of_not_fire _ _ _ hFire) (still_of_disabled hEnable) hDone, ?_⟩
      simp [Serves, next, AXI4Writer.next, AXI4Writer.nextData, hState, writerInput, hNone, hEnable]
  | some ⟨way, false⟩ =>
    obtain ⟨rfl, hPhase⟩ := h
    have hBusy : s.writer.dataState ≠ .sDataIdle := by rcases hPhase with h | h <;> rw [h.1] <;> exact DataState.noConfusion
    have hNotDone : s.writer.dataState ≠ .sDataDone := by rcases hPhase with h | h <;> rw [h.1] <;> exact DataState.noConfusion
    obtain ⟨hIndex, hGranted⟩ := keeps_index (i := i) hBusy
    refine ⟨_, .transfer s.sel.indexR hGranted beat_eq (done_eq hNotDone), ?_⟩
    rcases hPhase with ⟨hState, hEnable⟩ | ⟨hState, hEnable, hReady⟩
    · have hEnd : (s.output i).busEnd = false := by simp [output, AXI4Writer.takesResp, hState]
      rw [hEnd]
      refine ⟨hIndex, ?_⟩
      simp only [next, AXI4Writer.next, AXI4Writer.nextData, hState]
      split
      · split
        · exact .inl ⟨rfl, hEnable⟩
        · exact .inr ⟨rfl, rfl, rfl⟩
      · exact .inl ⟨hState, hEnable⟩
    · have hEnd : (s.output i).busEnd = i.bvalid := by simp [output, AXI4Writer.takesResp, hState, hReady]
      rw [hEnd]
      cases hResp : i.bvalid <;> refine ⟨hIndex, ?_⟩ <;>
        simp [next, AXI4Writer.next, AXI4Writer.nextData, hState, writerInput, hResp, hReady, hEnable]
  | some ⟨way, true⟩ =>
    obtain ⟨rfl, hState, hEnable⟩ := h
    have hBusy : s.writer.dataState ≠ .sDataIdle := by rw [hState]; exact DataState.noConfusion
    have hDone : (s.output i).done = only s.sel.indexR := by
      funext way
      have hXfer : s.writer.xferDone = true := decide_eq_true hState
      exact (congrArg (· && only way s.sel.indexR) hXfer).trans (decide_eq_decide.mpr eq_comm)
    refine ⟨_, .done s.sel.indexR (keeps_index hBusy).2 (still_of_disabled hEnable) hDone, ?_⟩
    simp [Serves, next, AXI4Writer.next, AXI4Writer.nextData, hState, hEnable]

variable (s) (i) in
/-- The bus answers no write whose address it has not taken. -/
def AnswersInOrder : Prop := i.bvalid = true → s.writer.awvalid = false

instance (s : AXIWriteMultiplexer n addrW) (i : Input n addrW δ) : Decidable (s.AnswersInOrder i) :=
  inferInstanceAs (Decidable (_ → _))

/-- The address registers hold the request whose address the bus has not taken. -/
def Announces (s : AXIWriteMultiplexer n addrW) : Option (Xfer addrW) → Prop
  | none => s.writer.awvalid = false ∧ (s.writer.addrState = .sAddrIdle ∧ s.writer.dataState = .sDataIdle ∨
      s.writer.addrState = .sAddrDone ∧ s.writer.dataState ≠ .sDataIdle)
  | some xfer => s.writer.addrState = .sAddrTransfer ∧ s.writer.awvalid = true ∧
      (s.writer.dataState = .sDataTransfer ∨ s.writer.dataState = .sDataResp) ∧
      (s.writer.awaddr, s.writer.awlen.setWidth lenWidth) = burst xfer

theorem busy_next (h : s.writer.dataState = .sDataTransfer ∨ s.writer.dataState = .sDataResp) :
    (s.next i).writer.dataState ≠ .sDataIdle := by
  rcases h with h | h <;> simp only [next, AXI4Writer.next, AXI4Writer.nextData, h]
  · split
    · split
      · exact DataState.noConfusion
      · exact DataState.noConfusion
    · rw [h]
      exact DataState.noConfusion
  · split
    · exact DataState.noConfusion
    · rw [h]
      exact DataState.noConfusion

theorem announces_step (pending : Option (Xfer addrW)) (h : s.Announces pending) (hOrder : s.AnswersInOrder i) :
    ∃ pending', AddressCycle pending (s.output i) pending' ∧ (s.next i).Announces pending' := by
  match pending with
  | none =>
    obtain ⟨hValid, hPhase⟩ := h
    have hQuiet : (s.output i).busAddr = none := by simp [output, hValid]
    rcases hPhase with ⟨hAddr, hData⟩ | ⟨hAddr, hData⟩
    · cases hFire : s.sel.fire i.req s.writer.xferReady with
      | true =>
        obtain ⟨xfer, hXfer⟩ := Option.isSome_iff_exists.mp (Bool.and_eq_true_iff.mp hFire).1
        refine ⟨_, .grant (s.sel.chosen i.req) xfer (Selector.granted_eq _ _ _ hFire) hXfer hQuiet, ?_⟩
        simp [Announces, next, AXI4Writer.next, AXI4Writer.nextData, AXI4Writer.nextAddr, hAddr, hData, writerInput, hXfer, burst]
      | false =>
        have hNone : s.sel.selectedReq i.req = none := by
          simpa [Selector.fire, AXI4Writer.xferReady, hData] using hFire
        refine ⟨_, .quiet none (Selector.granted_of_not_fire _ _ _ hFire) hQuiet, ?_⟩
        simp [Announces, next, AXI4Writer.next, AXI4Writer.nextData, AXI4Writer.nextAddr, hAddr, hData, writerInput, hNone, hValid]
    · refine ⟨_, .quiet none (keeps_index (i := i) hData).2 hQuiet, ?_⟩
      cases hDone : s.writer.xferDone with
      | true =>
        have hState : s.writer.dataState = .sDataDone := of_decide_eq_true hDone
        simp [Announces, next, AXI4Writer.next, AXI4Writer.nextData, AXI4Writer.nextAddr, hAddr, hState, hDone, hValid]
      | false =>
        have hBusy : s.writer.dataState = .sDataTransfer ∨ s.writer.dataState = .sDataResp := by
          have hNot : s.writer.dataState ≠ .sDataDone := of_decide_eq_false hDone
          cases hState : s.writer.dataState with
          | sDataIdle => exact absurd hState hData
          | sDataTransfer => exact .inl rfl
          | sDataResp => exact .inr rfl
          | sDataDone => exact absurd hState hNot
        refine ⟨?_, .inr ⟨?_, busy_next hBusy⟩⟩ <;> simp [next, AXI4Writer.next, AXI4Writer.nextAddr, hAddr, hDone, hValid]
  | some xfer =>
    obtain ⟨hAddr, hValid, hData, hBurst⟩ := h
    have hBusy : s.writer.dataState ≠ .sDataIdle := by rcases hData with h | h <;> rw [h] <;> exact DataState.noConfusion
    have hGranted := (keeps_index (i := i) hBusy).2
    have hNoResp : i.bvalid = false := by
      refine Bool.eq_false_iff.mpr fun hResp => ?_
      rw [hOrder hResp] at hValid
      cases hValid
    cases hReady : i.awready with
    | true =>
      refine ⟨_, .address xfer hGranted (by simp [output, hValid, hReady, hBurst]), ?_⟩
      refine ⟨?_, .inr ⟨?_, busy_next hData⟩⟩ <;> simp [next, AXI4Writer.next, AXI4Writer.nextAddr, hAddr, hValid, writerInput, hReady]
    | false =>
      refine ⟨_, .quiet (some xfer) hGranted (by simp [output, hReady]), ?_, ?_, ?_, ?_⟩
      · simp [next, AXI4Writer.next, AXI4Writer.nextAddr, hAddr, writerInput, hReady]
      · simp [next, AXI4Writer.next, AXI4Writer.nextAddr, hAddr, writerInput, hReady, hValid]
      · rcases hData with hData | hData <;> simp only [next, AXI4Writer.next, AXI4Writer.nextData, hData]
        · split
          · split
            · exact .inl rfl
            · exact .inr rfl
          · exact .inl hData
        · rw [if_neg (by simp [writerInput, hNoResp])]
          exact .inr hData
      · simpa [next, AXI4Writer.next, AXI4Writer.nextAddr, hAddr, writerInput, hReady] using hBurst

end Step

end AXIWriteMultiplexer

/-- In every run, whatever is requested and however the ways and the bus stall, the ways and the bus
see one transfer after another: its beats, all of them, and its one end go to the way whose request
was taken, and its address and length are those of that request. -/
theorem transfers_isolated (n addrW : Nat) (δ : Type u) (lastGrant : Fin (n + 1)) :
    (∀ is, Isolated ((AXIReadMultiplexer.machine n addrW δ).trace (.reset lastGrant) is) ∧
      AddressedInOrder ((AXIReadMultiplexer.machine n addrW δ).trace (.reset lastGrant) is)) ∧
    ∀ is, Isolated ((AXIWriteMultiplexer.machine n addrW δ).trace (.reset lastGrant) is) ∧
      ((AXIWriteMultiplexer.machine n addrW δ).Along AXIWriteMultiplexer.AnswersInOrder (.reset lastGrant) is →
        AddressedInOrder ((AXIWriteMultiplexer.machine n addrW δ).trace (.reset lastGrant) is)) := by
  constructor <;> intro is <;> constructor
  · exact (Machine.along_of_forall (fun _ _ => trivial) _ is).accepts (⟨rfl, rfl⟩ : AXIReadMultiplexer.Serves _ none)
      fun s t i hServes (_ : True) => AXIReadMultiplexer.serves_step s i t hServes
  · exact (Machine.along_of_forall (fun _ _ => trivial) _ is).accepts (⟨ReaderState.noConfusion, rfl⟩ : AXIReadMultiplexer.Announces _ none)
      fun s t i hAnnounces (_ : True) => AXIReadMultiplexer.announces_step s i t hAnnounces
  · exact (Machine.along_of_forall (fun _ _ => trivial) _ is).accepts (⟨rfl, rfl⟩ : AXIWriteMultiplexer.Serves _ none)
      fun s t i hServes (_ : True) => AXIWriteMultiplexer.serves_step s i t hServes
  · intro hOrder
    exact hOrder.accepts (⟨rfl, .inl ⟨rfl, rfl⟩⟩ : AXIWriteMultiplexer.Announces _ none)
      fun _ t _ hAnnounces hAnswers => AXIWriteMultiplexer.announces_step t hAnnounces hAnswers

section TwoWays

def twoWays {α : Type u} (way0 way1 : α) (way : Fin 2) : α := if way = 0 then way0 else way1

def twoXfers : Option (Xfer 16) × Option (Xfer 16) := (some ⟨0x100, 2⟩, some ⟨0x200, 1⟩)

/-- Both ways ask at once. Way 1 is the first, with one beat; way 0 stalls the second of its two. -/
def reads : List (AXIReadMultiplexer.Input 1 16 Nat) :=
  let both := twoWays twoXfers.1 twoXfers.2
  let first := twoWays twoXfers.1 none
  let nobody := fun _ => none
  let ready := fun _ => true
  [⟨both, ready, false, none⟩, ⟨first, ready, false, none⟩, ⟨first, ready, true, none⟩, ⟨first, ready, false, some (7, true)⟩,
    ⟨first, ready, false, none⟩, ⟨first, ready, false, none⟩, ⟨nobody, ready, true, none⟩, ⟨nobody, ready, false, some (8, false)⟩,
    ⟨nobody, twoWays false true, false, some (9, true)⟩, ⟨nobody, ready, false, some (9, true)⟩, ⟨nobody, ready, false, none⟩]

/-- The bus takes the beats of way 0 before their address. -/
def writes : List (AXIWriteMultiplexer.Input 1 16 Nat) :=
  let both := twoWays twoXfers.1 twoXfers.2
  let first := twoWays twoXfers.1 none
  let nobody := fun _ => none
  [⟨both, twoWays (some 8) (some 7), false, false, false⟩, ⟨first, twoWays (some 8) (some 7), true, true, false⟩,
    ⟨first, twoWays (some 8) none, false, false, true⟩, ⟨first, twoWays (some 8) none, false, false, false⟩,
    ⟨first, twoWays (some 8) none, false, false, false⟩, ⟨nobody, twoWays (some 8) none, false, true, false⟩,
    ⟨nobody, twoWays (some 9) none, false, true, false⟩, ⟨nobody, fun _ => none, true, true, false⟩,
    ⟨nobody, fun _ => none, false, false, true⟩, ⟨nobody, fun _ => none, false, false, false⟩]

theorem transfers_isolated_two :
    (AddressedInOrder ((AXIReadMultiplexer.machine 1 16 Nat).trace (.reset 0) reads) ∧
      (AXIReadMultiplexer.machine 1 16 Nat).emitted DMAPorts.busAddr (.reset 0) reads = [(0x200, 0), (0x100, 1)] ∧
      (AXIReadMultiplexer.machine 1 16 Nat).emitted (fun o => o.beat 0) (.reset 0) reads = [8, 9] ∧
      (AXIReadMultiplexer.machine 1 16 Nat).emitted (fun o => o.beat 1) (.reset 0) reads = [7]) ∧
    AddressedInOrder ((AXIWriteMultiplexer.machine 1 16 Nat).trace (.reset 0) writes) ∧
      (AXIWriteMultiplexer.machine 1 16 Nat).emitted DMAPorts.busAddr (.reset 0) writes = [(0x200, 0), (0x100, 1)] ∧
      (AXIWriteMultiplexer.machine 1 16 Nat).emitted (fun o => o.beat 0) (.reset 0) writes = [8, 9] ∧
      (AXIWriteMultiplexer.machine 1 16 Nat).emitted (fun o => o.beat 1) (.reset 0) writes = [7] := by
  obtain ⟨hReads, hWrites⟩ := transfers_isolated 1 16 Nat 0
  refine ⟨⟨(hReads reads).2, ?_⟩, (hWrites writes).2 ?_, ?_⟩
  · decide
  · decide
  · decide

end TwoWays

end KnockoutKraken.Util
