import KnockoutKraken.Library.Indices
import KnockoutKraken.Library.Turns
import KnockoutKraken.Mmu.PageTablePlacement
import KnockoutKraken.Mmu.PageTableSetBuffer

/-!
# Sets moved beat by beat

A handler with its set buffer and the two sides of its memory port. The
port takes the address of a set, moves the words of the set one at a
time, and tells the end of the transfer in a later cycle than that of the
last word. Seen from the handler the set is moved as one block, by the
beat that moves its last word.
-/

namespace KnockoutKraken.Mmu

open Library Armflex

variable {params : PageTableParams}

/-- The memory in words of 64 bytes. -/
abbrev Dram := Nat → BitVec 512

section Memory

variable (memory : Dram) (t t' : BitVec params.pPageW) (beat beat' : Fin 3)

/-- The sets of the page table as they lie in memory. -/
def tableOf : SetWords := fun beat => memory (burstWord (vpn2ptSetPA t) beat)

theorem burstWord_eq_iff : burstWord (vpn2ptSetPA t) beat = burstWord (vpn2ptSetPA t') beat' ↔ t = t' ∧ beat = beat' := by
  have hBeat := beat.isLt
  have hBeat' := beat'.isLt
  rw [burstWord, burstWord, toNat_vpn2ptSetPA, toNat_vpn2ptSetPA, ← BitVec.toNat_inj, Fin.ext_iff]
  omega

theorem tableOf_update (word : BitVec 512) : tableOf (Function.update memory (burstWord (vpn2ptSetPA t) beat) word) =
    Function.update (tableOf memory) t (Function.update (tableOf memory t) beat word) := by
  refine funext fun t' => funext fun beat' => ?_
  by_cases hWord : burstWord (vpn2ptSetPA t') beat' = burstWord (vpn2ptSetPA t) beat
  · obtain ⟨rfl, rfl⟩ := (burstWord_eq_iff ..).mp hWord
    simp only [tableOf, Function.update_self]
  · rw [tableOf, Function.update_of_ne hWord]
    rcases eq_or_ne t' t with rfl | ht
    · have hBeat : beat' ≠ beat := fun hBeat => hWord ((burstWord_eq_iff ..).mpr ⟨rfl, hBeat⟩)
      rw [Function.update_self, Function.update_of_ne hBeat, tableOf]
    · rw [Function.update_of_ne ht, tableOf]

end Memory

theorem lt_two : ∀ {j : Fin 3}, j ≠ 2 → j < 2 := by decide

theorem lt_count_succ : ∀ {j k : Fin 3}, (k == 2) = false → (j < k + 1 ↔ j = k ∨ j < k) := by decide

inductive Transfer (params : PageTableParams) where
  | idle
  | beats (address : BitVec (dramAddrW params)) (beat : Fin 3)
  | moved
deriving DecidableEq

namespace Transfer

variable (x : Transfer params) (step : Bool)

def word : Option Nat :=
  match x with
  | beats address beat => if step then some (burstWord address beat) else none
  | _ => none

def done : Bool := step && decide (x = moved)

def next (request : Option (BitVec (dramAddrW params))) (fired : Bool) : Transfer params :=
  match x with
  | idle => if step then (request.map (beats · 0)).getD idle else idle
  | beats address beat => if fired then (if beat = 2 then moved else beats address (beat + 1)) else beats address beat
  | moved => if step then idle else moved

@[simp] theorem done_idle : (idle : Transfer params).done step = false := Bool.and_false _

@[simp] theorem done_beats (address : BitVec (dramAddrW params)) (beat : Fin 3) : (beats address beat).done step = false :=
  Bool.and_false _

@[simp] theorem done_moved : (moved : Transfer params).done step = step := Bool.and_true _

variable (fired : Bool)

@[simp] theorem next_idle_none : (idle : Transfer params).next step none fired = idle := by cases step <;> rfl

theorem next_idle_some (address : BitVec (dramAddrW params)) :
    idle.next step (some address) fired = if step then beats address 0 else idle := rfl

end Transfer

variable {ω ε : Type}

abbrev SetHandler (params : PageTableParams) (ω ε : Type) :=
  Handler (BitVec params.pPageW) SetWords (PageSetBufferWriteRequestPacket params) ω ε

/-- How a handler is connected to its buffer: the tag it looks up, and when words may leave the buffer. -/
structure Wiring (h : SetHandler params ω ε) where
  lookupRequest : h.State → PTTagPacket params
  moveOut : h.State → Bool
  patient : h.Patient
  moveOut_of_storing : ∀ {s t}, h.storing s = some t → moveOut s = true

structure Buffered (h : SetHandler params ω ε) where
  state : h.State
  buffer : PageTableSetBuffer params
  reader : Transfer params
  writer : Transfer params

namespace Buffered

variable {h : SetHandler params ω ε}

structure Input (h : SetHandler params ω ε) where
  handler : h.Input
  readStep : Bool
  writeStep : Bool

section Circuit

variable (w : Wiring h) (d : Buffered h) (memory : Dram) (i : Input h)

def bufferInput : PageTableSetBuffer.Input params where
  dmaDataI := (d.reader.word i.readStep).map memory
  dmaDataOReady := (d.writer.word i.writeStep).isSome && w.moveOut d.state
  writeRequest := h.writeRequest d.state
  lookupRequest := w.lookupRequest d.state

/-- What the buffer and the port tell the handler. -/
def moved : Moved SetWords where
  block := d.buffer.bufferR
  readDone := d.reader.done i.readStep
  writeDone := d.writer.done i.writeStep
  writeReady := d.buffer.stateR == .sIdle

def dataI : Option (BitVec 512) := d.buffer.dmaDataIFire (d.bufferInput w memory i)

def dataO : Option (BitVec 512) := d.buffer.dmaDataOFire (d.bufferInput w memory i)

def next : Buffered h where
  state := h.next d.state i.handler (d.moved i)
  buffer := d.buffer.next (d.bufferInput w memory i)
  reader := d.reader.next i.readStep ((h.loading d.state).map vpn2ptSetPA) (d.dataI w memory i).isSome
  writer := d.writer.next i.writeStep ((h.storing d.state).map vpn2ptSetPA) (d.dataO w memory i).isSome

def nextMemory : Dram :=
  match d.writer.word i.writeStep, d.dataO w memory i with
  | some word, some data => Function.update memory word data
  | _, _ => memory

/-- What the client that moves whole sets sees of the cycle: a set is moved with its last word. -/
def whole : h.ClientInput where
  handler := i.handler
  move := ((d.dataI w memory i).isSome || (d.dataO w memory i).isSome) && d.buffer.lastBeat
  done := d.reader.done i.readStep || d.writer.done i.writeStep
  torn := (d.next w memory i).buffer.bufferR

end Circuit

/-- How far the words of a set have moved, and which set the table is told to hold. -/
inductive Stage (memory : Dram) (d : Buffered h) (c : h.Client) (table : BitVec params.pPageW → SetWords) : Prop
  | rest (reader : d.reader = .idle) (writer : d.writer = .idle) (count : d.buffer.dmaCntR = 0)
      (readMoved : c.readMoved = false) (writeMoved : c.writeMoved = false) (table : tableOf memory = table)
  | load {t : BitVec params.pPageW} (reader : d.reader = .beats (vpn2ptSetPA t) d.buffer.dmaCntR)
      (writer : d.writer = .idle) (asked : h.loading d.state = some t) (burst : d.buffer.stateR ≠ .sMoveOut)
      (come : ∀ j < d.buffer.dmaCntR, d.buffer.bufferR j = table t j) (readMoved : c.readMoved = false)
      (writeMoved : c.writeMoved = false) (table : tableOf memory = table)
  | loaded {t : BitVec params.pPageW} (reader : d.reader = .moved) (writer : d.writer = .idle)
      (asked : h.loading d.state = some t) (count : d.buffer.dmaCntR = 0) (readMoved : c.readMoved = true)
      (writeMoved : c.writeMoved = false) (table : tableOf memory = table)
  | store {t : BitVec params.pPageW} (reader : d.reader = .idle)
      (writer : d.writer = .beats (vpn2ptSetPA t) d.buffer.dmaCntR) (asked : h.storing d.state = some t)
      (burst : d.buffer.stateR ≠ .sMoveIn) (readMoved : c.readMoved = false) (writeMoved : c.writeMoved = false)
      (table : tableOf memory = Function.update table t fun j =>
        if j < d.buffer.dmaCntR then d.buffer.bufferR j else table t j)
  | stored {t : BitVec params.pPageW} (reader : d.reader = .idle) (writer : d.writer = .moved)
      (asked : h.storing d.state = some t) (count : d.buffer.dmaCntR = 0) (readMoved : c.readMoved = false)
      (writeMoved : c.writeMoved = true) (table : tableOf memory = table)

/-- A handler with its buffer does what the client that moves whole sets does. -/
structure Follows (memory : Dram) (d : Buffered h) (c : h.Client) (table : BitVec params.pPageW → SetWords) : Prop where
  state : c.state = d.state
  block : c.block = d.buffer.bufferR
  counted : d.buffer.Counted
  stage : Stage memory d c table

section Simulation

variable {w : Wiring h} {d : Buffered h} {memory : Dram} {c : h.Client} {table : BitVec params.pPageW → SetWords}
  (i : Input h)

variable (w memory) in
theorem dataI_of_word (hWord : d.reader.word i.readStep = none) : d.dataI w memory i = none := by
  rw [dataI, PageTableSetBuffer.dmaDataIFire, bufferInput, hWord, Option.map_none, ite_self]

variable (w memory) in
theorem dataO_of_word (hWord : d.writer.word i.writeStep = none) : d.dataO w memory i = none := by
  rw [dataO, PageTableSetBuffer.dmaDataOFire, bufferInput, hWord, Option.isSome_none, Bool.false_and, Bool.and_false,
    if_neg Bool.false_ne_true]

theorem dataI_of_load {address : BitVec (dramAddrW params)} {beat : Fin 3} (reader : d.reader = .beats address beat)
    (hNoWrite : h.writeRequest d.state = none) (burst : d.buffer.stateR ≠ .sMoveOut) (hStep : i.readStep = true) :
    d.dataI w memory i = some (memory (burstWord address beat)) := by
  have hData : (d.bufferInput w memory i).dmaDataI = some (memory (burstWord address beat)) := by
    rw [bufferInput, reader, Transfer.word, hStep, if_pos rfl, Option.map_some]
  have hReady : d.buffer.dmaDataIReady (d.bufferInput w memory i) = true := by
    rw [PageTableSetBuffer.dmaDataIReady, PageTableSetBuffer.writeFire, bufferInput, hNoWrite, ite_self]
    cases hState : d.buffer.stateR with
    | sIdle => rfl
    | sMoveIn => rfl
    | sMoveOut => exact absurd hState burst
  rw [dataI, PageTableSetBuffer.dmaDataIFire, hReady, if_pos rfl, hData]

theorem dataO_of_store {t : BitVec params.pPageW} {address : BitVec (dramAddrW params)} {beat : Fin 3}
    (writer : d.writer = .beats address beat) (asked : h.storing d.state = some t) (burst : d.buffer.stateR ≠ .sMoveIn)
    (hStep : i.writeStep = true) : d.dataO w memory i = some (d.buffer.bufferR d.buffer.dmaCntR) := by
  have hValid : d.buffer.dmaDataOValid = true := by
    rw [PageTableSetBuffer.dmaDataOValid]
    cases hState : d.buffer.stateR with
    | sIdle => rfl
    | sMoveIn => exact absurd hState burst
    | sMoveOut => rfl
  have hReady : (d.bufferInput w memory i).dmaDataOReady = true := by
    rw [bufferInput, writer, Transfer.word, hStep, if_pos rfl, w.moveOut_of_storing asked]
    rfl
  rw [dataO, PageTableSetBuffer.dmaDataOFire, hValid, hReady]
  rfl

theorem state_next (hPatient : h.Patient) (hFollows : Follows memory d c table)
    (hRead : (c.readMoved && (d.whole w memory i).done) = d.reader.done i.readStep)
    (hWrite : (c.writeMoved && (d.whole w memory i).done) = d.writer.done i.writeStep)
    (hReady : h.writeRequest d.state = none ∨ d.buffer.stateR = .sIdle) :
    (c.next writeWords table (d.whole w memory i)).state = (d.next w memory i).state := by
  have hMoved : c.moved (d.whole w memory i) = { d.moved i with writeReady := true } := by
    rw [Handler.Client.moved, hFollows.block, hRead, hWrite]
    rfl
  change h.next c.state i.handler (c.moved (d.whole w memory i)) = h.next d.state i.handler (d.moved i)
  rw [hMoved, hFollows.state]
  rcases hReady with hNone | hIdle
  · exact (hPatient.ready i.handler (d.moved i) hNone).symm
  · have hSame : d.moved i = { d.moved i with writeReady := true } := by
      rw [moved, hIdle]
      rfl
    rw [← hSame]

/-- In a cycle without a beat the client moves nothing either. -/
structure Still (w : Wiring h) (d : Buffered h) (memory : Dram) (c : h.Client) (table : BitVec params.pPageW → SetWords)
    (i : Input h) : Prop where
  block : (c.next writeWords table (d.whole w memory i)).block = (d.next w memory i).buffer.bufferR
  readMoved : (c.next writeWords table (d.whole w memory i)).readMoved = (c.readMoved && !(d.whole w memory i).done)
  writeMoved : (c.next writeWords table (d.whole w memory i)).writeMoved = (c.writeMoved && !(d.whole w memory i).done)
  table : c.nextTable table (d.whole w memory i) = table
  dram : d.nextMemory w memory i = memory
  words : (d.next w memory i).buffer.bufferR =
    ((h.writeRequest d.state).map (writeWords d.buffer.bufferR)).getD d.buffer.bufferR
  count : (d.next w memory i).buffer.dmaCntR = d.buffer.dmaCntR
  burst : (d.next w memory i).buffer.stateR = d.buffer.stateR

theorem Follows.still (hFollows : Follows memory d c table) (hIn : d.dataI w memory i = none)
    (hOut : d.dataO w memory i = none) (hReady : h.writeRequest d.state = none ∨ d.buffer.stateR = .sIdle) :
    Still w d memory c table i := by
  have hMove : (d.whole w memory i).move = false := by rw [whole, hIn, hOut]; rfl
  have hReads : c.reads (d.whole w memory i) = none := by simp [Handler.Client.reads, hMove]
  have hStores : c.stores (d.whole w memory i) = none := by simp [Handler.Client.stores, hMove]
  have hBuffer := PageTableSetBuffer.next_of_quiet hIn hOut
  have hWords : (d.next w memory i).buffer.bufferR =
      ((h.writeRequest d.state).map (writeWords d.buffer.bufferR)).getD d.buffer.bufferR := by
    change (d.buffer.next (d.bufferInput w memory i)).bufferR = _
    rw [hBuffer, PageTableSetBuffer.writeFire, bufferInput]
    rcases hReady with hNone | hIdle
    · rw [hNone, ite_self]
      rfl
    · rw [if_pos hIdle]
      rfl
  have hCount : (d.buffer.next (d.bufferInput w memory i)).dmaCntR = d.buffer.dmaCntR := by rw [hBuffer]
  have hBurst : (d.buffer.next (d.bufferInput w memory i)).stateR = d.buffer.stateR := by rw [hBuffer]
  refine ⟨?_, ?_, ?_, ?_, ?_, hWords, hCount, hBurst⟩
  · change c.nextBlock writeWords table (d.whole w memory i) = _
    rw [Handler.Client.nextBlock, hReads]
    split
    · rfl
    · rw [hWords, hFollows.state, hFollows.block]
  · rw [Handler.Client.next, hReads]
    cases c.readMoved <;> rfl
  · rw [Handler.Client.next, hStores]
    cases c.writeMoved <;> rfl
  · rw [Handler.Client.nextTable, hStores]
  · rw [nextMemory, hOut]
    cases d.writer.word i.writeStep <;> rfl

section Cycle

variable (hPatient : h.Patient) (hFollows : Follows memory d c table)
include hPatient hFollows

theorem Follows.ready : h.writeRequest d.state = none ∨ d.buffer.stateR = .sIdle := by
  cases hFollows.stage with
  | rest _ _ count => exact .inr (hFollows.counted.mpr count)
  | load _ _ asked => exact .inl (hPatient.of_loading asked).2
  | loaded _ _ asked => exact .inl (hPatient.of_loading asked).2
  | store _ _ asked => exact .inl (hPatient.of_storing asked)
  | stored _ _ asked => exact .inl (hPatient.of_storing asked)

omit hPatient in
theorem Follows.done : (c.readMoved && (d.whole w memory i).done) = d.reader.done i.readStep ∧
    (c.writeMoved && (d.whole w memory i).done) = d.writer.done i.writeStep := by
  rw [whole]
  cases hFollows.stage with
  | rest reader writer _ readMoved writeMoved => simp [reader, writer, readMoved, writeMoved]
  | load reader writer _ _ _ readMoved writeMoved => simp [reader, writer, readMoved, writeMoved]
  | loaded reader writer _ _ readMoved writeMoved => simp [reader, writer, readMoved, writeMoved]
  | store reader writer _ _ readMoved writeMoved => simp [reader, writer, readMoved, writeMoved]
  | stored reader writer _ _ readMoved writeMoved => simp [reader, writer, readMoved, writeMoved]

theorem Follows.next_of_stage (hBlock : (c.next writeWords table (d.whole w memory i)).block = (d.next w memory i).buffer.bufferR)
    (hStage : Stage (d.nextMemory w memory i) (d.next w memory i) (c.next writeWords table (d.whole w memory i))
      (c.nextTable table (d.whole w memory i))) :
    Follows (d.nextMemory w memory i) (d.next w memory i) (c.next writeWords table (d.whole w memory i))
      (c.nextTable table (d.whole w memory i)) where
  state := state_next i hPatient hFollows (hFollows.done i).1 (hFollows.done i).2 (hFollows.ready hPatient)
  block := hBlock
  counted := hFollows.counted.next
  stage := hStage

section Still

variable (hIn : d.dataI w memory i = none) (hOut : d.dataO w memory i = none)
include hIn hOut

omit hPatient hFollows hOut in
theorem reader_of_still : (d.next w memory i).reader = d.reader.next i.readStep ((h.loading d.state).map vpn2ptSetPA) false := by
  rw [next, hIn]
  rfl

omit hPatient hFollows hIn in
theorem writer_of_still : (d.next w memory i).writer = d.writer.next i.writeStep ((h.storing d.state).map vpn2ptSetPA) false := by
  rw [next, hOut]
  rfl

theorem Follows.stage_of_rest (reader : d.reader = .idle) (writer : d.writer = .idle) (count : d.buffer.dmaCntR = 0)
    (readMoved : c.readMoved = false) (writeMoved : c.writeMoved = false) (hTable : tableOf memory = table) :
    Stage memory (d.next w memory i) (c.next writeWords table (d.whole w memory i)) table := by
  have hStill := hFollows.still i hIn hOut (hFollows.ready hPatient)
  have hReader := reader_of_still i hIn
  have hWriter := writer_of_still i hOut
  have hReadMoved : (c.next writeWords table (d.whole w memory i)).readMoved = false := by
    rw [hStill.readMoved, readMoved, Bool.false_and]
  have hWriteMoved : (c.next writeWords table (d.whole w memory i)).writeMoved = false := by
    rw [hStill.writeMoved, writeMoved, Bool.false_and]
  have hCount := hStill.count.trans count
  have hBurst := hStill.burst.trans (hFollows.counted.mpr count)
  rw [reader] at hReader
  rw [writer] at hWriter
  cases hLoad : h.loading d.state with
  | some t =>
    rw [(hPatient.of_loading hLoad).1, Option.map_none, Transfer.next_idle_none] at hWriter
    rw [hLoad, Option.map_some, Transfer.next_idle_some] at hReader
    cases hStep : i.readStep with
    | true =>
      have hAsked : h.loading (d.next w memory i).state = some t :=
        hPatient.loading i.handler (d.moved i) hLoad (by rw [moved, reader, Transfer.done_idle])
      rw [hStep, if_pos rfl, ← hCount] at hReader
      refine .load hReader hWriter hAsked ?_ ?_ hReadMoved hWriteMoved hTable
      · rw [hBurst]
        exact BufferState.noConfusion
      · intro j hj
        rw [hCount] at hj
        exact absurd hj (Fin.not_lt_zero j)
    | false =>
      rw [hStep, if_neg Bool.false_ne_true] at hReader
      exact .rest hReader hWriter hCount hReadMoved hWriteMoved hTable
  | none =>
    rw [hLoad, Option.map_none, Transfer.next_idle_none] at hReader
    cases hStore : h.storing d.state with
    | none =>
      rw [hStore, Option.map_none, Transfer.next_idle_none] at hWriter
      exact .rest hReader hWriter hCount hReadMoved hWriteMoved hTable
    | some t =>
      rw [hStore, Option.map_some, Transfer.next_idle_some] at hWriter
      cases hStep : i.writeStep with
      | true =>
        have hAsked : h.storing (d.next w memory i).state = some t :=
          hPatient.storing i.handler (d.moved i) hStore (by rw [moved, writer, Transfer.done_idle])
        rw [hStep, if_pos rfl, ← hCount] at hWriter
        refine .store hReader hWriter hAsked ?_ hReadMoved hWriteMoved ?_
        · rw [hBurst]
          exact BufferState.noConfusion
        · simp only [hCount, Fin.not_lt_zero, if_false, Function.update_eq_self, hTable]
      | false =>
        rw [hStep, if_neg Bool.false_ne_true] at hWriter
        exact .rest hReader hWriter hCount hReadMoved hWriteMoved hTable

theorem Follows.stage_of_load {t : BitVec params.pPageW} (reader : d.reader = .beats (vpn2ptSetPA t) d.buffer.dmaCntR)
    (writer : d.writer = .idle) (asked : h.loading d.state = some t) (burst : d.buffer.stateR ≠ .sMoveOut)
    (come : ∀ j < d.buffer.dmaCntR, d.buffer.bufferR j = table t j) (readMoved : c.readMoved = false)
    (writeMoved : c.writeMoved = false) (hTable : tableOf memory = table) :
    Stage memory (d.next w memory i) (c.next writeWords table (d.whole w memory i)) table := by
  have hStill := hFollows.still i hIn hOut (hFollows.ready hPatient)
  have hReader := reader_of_still i hIn
  have hWriter := writer_of_still i hOut
  have hWords : (d.next w memory i).buffer.bufferR = d.buffer.bufferR := by
    rw [hStill.words, (hPatient.of_loading asked).2]
    rfl
  rw [reader, ← hStill.count] at hReader
  rw [writer, (hPatient.of_loading asked).1, Option.map_none, Transfer.next_idle_none] at hWriter
  refine .load hReader hWriter (hPatient.loading i.handler (d.moved i) asked ?_) ?_ ?_ ?_ ?_ hTable
  · rw [moved, reader, Transfer.done_beats]
  · rwa [hStill.burst]
  · rwa [hWords, hStill.count]
  · rw [hStill.readMoved, readMoved, Bool.false_and]
  · rw [hStill.writeMoved, writeMoved, Bool.false_and]

theorem Follows.stage_of_loaded {t : BitVec params.pPageW} (reader : d.reader = .moved) (writer : d.writer = .idle)
    (asked : h.loading d.state = some t) (count : d.buffer.dmaCntR = 0) (readMoved : c.readMoved = true)
    (writeMoved : c.writeMoved = false) (hTable : tableOf memory = table) :
    Stage memory (d.next w memory i) (c.next writeWords table (d.whole w memory i)) table := by
  have hStill := hFollows.still i hIn hOut (hFollows.ready hPatient)
  have hReader := reader_of_still i hIn
  have hWriter := writer_of_still i hOut
  have hDone : (d.whole w memory i).done = (d.reader.done i.readStep || d.writer.done i.writeStep) := rfl
  have hWriteMoved : (c.next writeWords table (d.whole w memory i)).writeMoved = false := by
    rw [hStill.writeMoved, writeMoved, Bool.false_and]
  rw [writer, (hPatient.of_loading asked).1, Option.map_none, Transfer.next_idle_none] at hWriter
  rw [reader] at hReader
  have hReadMoved := hStill.readMoved
  rw [readMoved, hDone, reader, writer, Transfer.done_idle, Transfer.done_moved, Bool.or_false, Bool.true_and] at hReadMoved
  cases hStep : i.readStep with
  | true =>
    rw [hStep] at hReader hReadMoved
    exact .rest hReader hWriter (hStill.count.trans count) hReadMoved hWriteMoved hTable
  | false =>
    rw [hStep] at hReader hReadMoved
    refine .loaded hReader hWriter (hPatient.loading i.handler (d.moved i) asked ?_) (hStill.count.trans count) hReadMoved
      hWriteMoved hTable
    rw [moved, reader, Transfer.done_moved, hStep]

theorem Follows.stage_of_store {t : BitVec params.pPageW} (reader : d.reader = .idle)
    (writer : d.writer = .beats (vpn2ptSetPA t) d.buffer.dmaCntR) (asked : h.storing d.state = some t)
    (burst : d.buffer.stateR ≠ .sMoveIn) (readMoved : c.readMoved = false) (writeMoved : c.writeMoved = false)
    (hTable : tableOf memory = Function.update table t fun j => if j < d.buffer.dmaCntR then d.buffer.bufferR j else table t j) :
    Stage memory (d.next w memory i) (c.next writeWords table (d.whole w memory i)) table := by
  have hStill := hFollows.still i hIn hOut (hFollows.ready hPatient)
  have hReader := reader_of_still i hIn
  have hWriter := writer_of_still i hOut
  have hWords : (d.next w memory i).buffer.bufferR = d.buffer.bufferR := by
    rw [hStill.words, hPatient.of_storing asked]
    rfl
  rw [writer, ← hStill.count] at hWriter
  rw [reader, hPatient.loading_of_storing asked, Option.map_none, Transfer.next_idle_none] at hReader
  refine .store hReader hWriter (hPatient.storing i.handler (d.moved i) asked ?_) ?_ ?_ ?_ ?_
  · rw [moved, writer, Transfer.done_beats]
  · rwa [hStill.burst]
  · rw [hStill.readMoved, readMoved, Bool.false_and]
  · rw [hStill.writeMoved, writeMoved, Bool.false_and]
  · rwa [hWords, hStill.count]

theorem Follows.stage_of_stored {t : BitVec params.pPageW} (reader : d.reader = .idle) (writer : d.writer = .moved)
    (asked : h.storing d.state = some t) (count : d.buffer.dmaCntR = 0) (readMoved : c.readMoved = false)
    (writeMoved : c.writeMoved = true) (hTable : tableOf memory = table) :
    Stage memory (d.next w memory i) (c.next writeWords table (d.whole w memory i)) table := by
  have hStill := hFollows.still i hIn hOut (hFollows.ready hPatient)
  have hReader := reader_of_still i hIn
  have hWriter := writer_of_still i hOut
  have hDone : (d.whole w memory i).done = (d.reader.done i.readStep || d.writer.done i.writeStep) := rfl
  have hReadMoved : (c.next writeWords table (d.whole w memory i)).readMoved = false := by
    rw [hStill.readMoved, readMoved, Bool.false_and]
  rw [reader, hPatient.loading_of_storing asked, Option.map_none, Transfer.next_idle_none] at hReader
  rw [writer] at hWriter
  have hWriteMoved := hStill.writeMoved
  rw [writeMoved, hDone, reader, writer, Transfer.done_idle, Transfer.done_moved, Bool.false_or, Bool.true_and] at hWriteMoved
  cases hStep : i.writeStep with
  | true =>
    rw [hStep] at hWriter hWriteMoved
    exact .rest hReader hWriter (hStill.count.trans count) hReadMoved hWriteMoved hTable
  | false =>
    rw [hStep] at hWriter hWriteMoved
    refine .stored hReader hWriter (hPatient.storing i.handler (d.moved i) asked ?_) (hStill.count.trans count) hReadMoved
      hWriteMoved hTable
    rw [moved, writer, Transfer.done_moved, hStep]

/-- The cycles in which no word is moved: the port is asked for a transfer, waits, or tells its end. -/
theorem Follows.next_of_still :
    Follows (d.nextMemory w memory i) (d.next w memory i) (c.next writeWords table (d.whole w memory i))
      (c.nextTable table (d.whole w memory i)) := by
  have hStill := hFollows.still i hIn hOut (hFollows.ready hPatient)
  refine hFollows.next_of_stage i hPatient hStill.block ?_
  rw [hStill.table, hStill.dram]
  cases hFollows.stage with
  | rest reader writer count readMoved writeMoved hTable =>
    exact hFollows.stage_of_rest i hPatient hIn hOut reader writer count readMoved writeMoved hTable
  | load reader writer asked burst come readMoved writeMoved hTable =>
    exact hFollows.stage_of_load i hPatient hIn hOut reader writer asked burst come readMoved writeMoved hTable
  | loaded reader writer asked count readMoved writeMoved hTable =>
    exact hFollows.stage_of_loaded i hPatient hIn hOut reader writer asked count readMoved writeMoved hTable
  | store reader writer asked burst readMoved writeMoved hTable =>
    exact hFollows.stage_of_store i hPatient hIn hOut reader writer asked burst readMoved writeMoved hTable
  | stored reader writer asked count readMoved writeMoved hTable =>
    exact hFollows.stage_of_stored i hPatient hIn hOut reader writer asked count readMoved writeMoved hTable

end Still

/-- A word of the set comes in. With the last one the client has loaded the set. -/
theorem Follows.next_of_load {t : BitVec params.pPageW} (reader : d.reader = .beats (vpn2ptSetPA t) d.buffer.dmaCntR)
    (writer : d.writer = .idle) (asked : h.loading d.state = some t) (burst : d.buffer.stateR ≠ .sMoveOut)
    (come : ∀ j < d.buffer.dmaCntR, d.buffer.bufferR j = table t j) (readMoved : c.readMoved = false)
    (writeMoved : c.writeMoved = false) (hTable : tableOf memory = table) (hStep : i.readStep = true) :
    Follows (d.nextMemory w memory i) (d.next w memory i) (c.next writeWords table (d.whole w memory i))
      (c.nextTable table (d.whole w memory i)) := by
  obtain ⟨hNoStore, hNoWrite⟩ := hPatient.of_loading asked
  have hWord : d.writer.word i.writeStep = none := by rw [writer]; rfl
  have hOut := dataO_of_word w memory i hWord
  have hIn : d.dataI w memory i = some (table t d.buffer.dmaCntR) := by
    rw [dataI_of_load i reader hNoWrite burst hStep, ← hTable]
    rfl
  have hBuffer : (d.next w memory i).buffer = ⟨Function.update d.buffer.bufferR d.buffer.dmaCntR (table t d.buffer.dmaCntR),
      if d.buffer.lastBeat then 0 else d.buffer.dmaCntR + 1, if d.buffer.lastBeat then .sIdle else .sMoveIn⟩ :=
    (hFollows.counted.next_of_fire hIn).2
  have hWords : (d.next w memory i).buffer.bufferR =
      Function.update d.buffer.bufferR d.buffer.dmaCntR (table t d.buffer.dmaCntR) := by rw [hBuffer]
  have hReader : (d.next w memory i).reader =
      if d.buffer.dmaCntR = 2 then .moved else .beats (vpn2ptSetPA t) (d.buffer.dmaCntR + 1) := by
    rw [next, hIn, reader]
    rfl
  have hWriter : (d.next w memory i).writer = .idle := by
    rw [next, writer, hNoStore, Option.map_none, Transfer.next_idle_none]
  have hMemory : d.nextMemory w memory i = memory := by rw [nextMemory, hWord]
  have hStores : c.stores (d.whole w memory i) = none := by simp [Handler.Client.stores, hFollows.state, hNoStore]
  have hSame : c.nextTable table (d.whole w memory i) = table := by rw [Handler.Client.nextTable, hStores]
  have hMove : (d.whole w memory i).move = d.buffer.lastBeat := by rw [whole, hIn, hOut]; rfl
  have hAsked : h.loading (d.next w memory i).state = some t :=
    hPatient.loading i.handler (d.moved i) asked (by rw [moved, reader, Transfer.done_beats])
  have hReads : c.reads (d.whole w memory i) = if d.buffer.lastBeat then some t else none := by
    rw [Handler.Client.reads, readMoved, hMove, hFollows.state, asked]
    rfl
  have hBlock : (c.next writeWords table (d.whole w memory i)).block =
      if d.buffer.lastBeat then table t else (d.next w memory i).buffer.bufferR := by
    change c.nextBlock writeWords table (d.whole w memory i) = _
    rw [Handler.Client.nextBlock, hFollows.state, asked, readMoved, Bool.not_false, Bool.and_true, if_pos Option.isSome_some,
      hReads]
    cases d.buffer.lastBeat <;> rfl
  have hReadMoved : (c.next writeWords table (d.whole w memory i)).readMoved = d.buffer.lastBeat := by
    rw [Handler.Client.next, readMoved, hReads]
    cases d.buffer.lastBeat <;> rfl
  have hWriteMoved : (c.next writeWords table (d.whole w memory i)).writeMoved = false := by
    rw [Handler.Client.next, writeMoved, hStores]
    rfl
  cases hLast : d.buffer.lastBeat with
  | true =>
    have hCount : d.buffer.dmaCntR = 2 := eq_of_beq hLast
    have hWhole : (d.next w memory i).buffer.bufferR = table t := by
      rw [hWords]
      refine funext fun j => ?_
      rcases eq_or_ne j d.buffer.dmaCntR with rfl | hj
      · exact Function.update_self ..
      · rw [Function.update_of_ne hj]
        exact come j (by rw [hCount] at hj ⊢; exact lt_two hj)
    rw [hLast] at hBlock hReadMoved
    rw [if_pos hCount] at hReader
    refine hFollows.next_of_stage i hPatient (hBlock.trans hWhole.symm) ?_
    rw [hSame, hMemory]
    refine .loaded hReader hWriter hAsked ?_ hReadMoved hWriteMoved hTable
    rw [hBuffer, hLast]
    rfl
  | false =>
    have hCount : d.buffer.dmaCntR ≠ 2 := ne_of_beq_false hLast
    have hNext : (d.next w memory i).buffer.dmaCntR = d.buffer.dmaCntR + 1 := by rw [hBuffer, hLast]; rfl
    rw [hLast] at hBlock hReadMoved
    rw [if_neg hCount, ← hNext] at hReader
    refine hFollows.next_of_stage i hPatient hBlock ?_
    rw [hSame, hMemory]
    refine .load hReader hWriter hAsked ?_ ?_ hReadMoved hWriteMoved hTable
    · rw [hBuffer, hLast]
      exact BufferState.noConfusion
    · intro j hj
      rw [hNext, lt_count_succ hLast] at hj
      rw [hWords]
      rcases hj with rfl | hj
      · exact Function.update_self ..
      · rw [Function.update_of_ne (ne_of_lt hj)]
        exact come j hj

/-- A word of the set goes out to the memory. With the last one the client has stored the set. -/
theorem Follows.next_of_store {t : BitVec params.pPageW}
    (reader : d.reader = .idle) (writer : d.writer = .beats (vpn2ptSetPA t) d.buffer.dmaCntR)
    (asked : h.storing d.state = some t) (burst : d.buffer.stateR ≠ .sMoveIn) (readMoved : c.readMoved = false)
    (writeMoved : c.writeMoved = false) (hTable : tableOf memory = Function.update table t fun j =>
      if j < d.buffer.dmaCntR then d.buffer.bufferR j else table t j) (hStep : i.writeStep = true) :
    Follows (d.nextMemory w memory i) (d.next w memory i) (c.next writeWords table (d.whole w memory i))
      (c.nextTable table (d.whole w memory i)) := by
  have hNoWrite := hPatient.of_storing asked
  have hNoLoad := hPatient.loading_of_storing asked
  have hIn : d.dataI w memory i = none := dataI_of_word w memory i (by rw [reader]; rfl)
  have hWord : d.writer.word i.writeStep = some (burstWord (vpn2ptSetPA t) d.buffer.dmaCntR) := by
    rw [writer, Transfer.word, hStep, if_pos rfl]
  have hOut : d.dataO w memory i = some (d.buffer.bufferR d.buffer.dmaCntR) := dataO_of_store i writer asked burst hStep
  have hBuffer : (d.next w memory i).buffer = ⟨d.buffer.bufferR, if d.buffer.lastBeat then 0 else d.buffer.dmaCntR + 1,
      if d.buffer.lastBeat then .sIdle else .sMoveOut⟩ := (hFollows.counted.next_of_out hIn hOut hNoWrite).2
  have hWords : (d.next w memory i).buffer.bufferR = d.buffer.bufferR := by rw [hBuffer]
  have hReader : (d.next w memory i).reader = .idle := by
    rw [next, reader, hNoLoad, Option.map_none, Transfer.next_idle_none]
  have hWriter : (d.next w memory i).writer =
      if d.buffer.dmaCntR = 2 then .moved else .beats (vpn2ptSetPA t) (d.buffer.dmaCntR + 1) := by
    rw [next, hOut, writer]
    rfl
  have hMemory : tableOf (d.nextMemory w memory i) = Function.update table t (Function.update
      (fun j => if j < d.buffer.dmaCntR then d.buffer.bufferR j else table t j) d.buffer.dmaCntR
      (d.buffer.bufferR d.buffer.dmaCntR)) := by
    rw [nextMemory, hWord, hOut]
    refine (tableOf_update ..).trans ?_
    rw [hTable, Function.update_self, Function.update_idem]
  have hReads : c.reads (d.whole w memory i) = none := by simp [Handler.Client.reads, hFollows.state, hNoLoad]
  have hMove : (d.whole w memory i).move = d.buffer.lastBeat := by rw [whole, hIn, hOut]; rfl
  have hAsked : h.storing (d.next w memory i).state = some t :=
    hPatient.storing i.handler (d.moved i) asked (by rw [moved, writer, Transfer.done_beats])
  have hStores : c.stores (d.whole w memory i) = if d.buffer.lastBeat then some t else none := by
    rw [Handler.Client.stores, writeMoved, hMove, hFollows.state, asked]
    rfl
  have hBlock : (c.next writeWords table (d.whole w memory i)).block = (d.next w memory i).buffer.bufferR := by
    change c.nextBlock writeWords table (d.whole w memory i) = _
    rw [Handler.Client.nextBlock, hFollows.state, hNoLoad, hNoWrite, hWords, hFollows.block]
    rfl
  have hReadMoved : (c.next writeWords table (d.whole w memory i)).readMoved = false := by
    rw [Handler.Client.next, readMoved, hReads]
    rfl
  have hWriteMoved : (c.next writeWords table (d.whole w memory i)).writeMoved = d.buffer.lastBeat := by
    rw [Handler.Client.next, writeMoved, hStores]
    cases d.buffer.lastBeat <;> rfl
  refine hFollows.next_of_stage i hPatient hBlock ?_
  cases hLast : d.buffer.lastBeat with
  | true =>
    have hStored : c.nextTable table (d.whole w memory i) = Function.update table t c.block := by
      rw [Handler.Client.nextTable, hStores, hLast]
      rfl
    rw [hStored]
    have hCount : d.buffer.dmaCntR = 2 := eq_of_beq hLast
    rw [hLast] at hWriteMoved
    rw [if_pos hCount] at hWriter
    refine .stored hReader hWriter hAsked (by rw [hBuffer, hLast]; rfl) hReadMoved hWriteMoved ?_
    rw [hMemory, hFollows.block]
    refine congrArg (Function.update table t) (funext fun j => ?_)
    rcases eq_or_ne j d.buffer.dmaCntR with rfl | hj
    · exact Function.update_self ..
    · rw [Function.update_of_ne hj, if_pos (by rw [hCount] at hj ⊢; exact lt_two hj)]
  | false =>
    have hCount : d.buffer.dmaCntR ≠ 2 := ne_of_beq_false hLast
    have hNext : (d.next w memory i).buffer.dmaCntR = d.buffer.dmaCntR + 1 := by rw [hBuffer, hLast]; rfl
    have hSame : c.nextTable table (d.whole w memory i) = table := by
      rw [Handler.Client.nextTable, hStores, hLast]
      rfl
    rw [hSame]
    rw [hLast] at hWriteMoved
    rw [if_neg hCount, ← hNext] at hWriter
    refine .store hReader hWriter hAsked (by rw [hBuffer, hLast]; exact BufferState.noConfusion) hReadMoved hWriteMoved ?_
    rw [hMemory, hWords, hNext]
    refine congrArg (Function.update table t) (funext fun j => ?_)
    simp only [lt_count_succ hLast]
    rcases eq_or_ne j d.buffer.dmaCntR with rfl | hj
    · rw [Function.update_self, if_pos (Or.inl rfl)]
    · rw [Function.update_of_ne hj]
      simp only [hj, false_or]

end Cycle

/-- Every cycle of a handler with its buffer is a step of the client that moves whole sets. -/
theorem Follows.next (w : Wiring h) (hFollows : Follows memory d c table) (i : Input h) :
    Follows (d.nextMemory w memory i) (d.next w memory i) (c.next writeWords table (d.whole w memory i))
      (c.nextTable table (d.whole w memory i)) := by
  have hStill (hRead : d.reader.word i.readStep = none) (hWrite : d.writer.word i.writeStep = none) :
      Follows (d.nextMemory w memory i) (d.next w memory i) (c.next writeWords table (d.whole w memory i))
        (c.nextTable table (d.whole w memory i)) :=
    hFollows.next_of_still i w.patient (dataI_of_word w memory i hRead) (dataO_of_word w memory i hWrite)
  cases hFollows.stage with
  | rest reader writer => exact hStill (by rw [reader]; rfl) (by rw [writer]; rfl)
  | load reader writer asked burst come readMoved writeMoved hTable =>
    cases hStep : i.readStep with
    | true => exact hFollows.next_of_load i w.patient reader writer asked burst come readMoved writeMoved hTable hStep
    | false => exact hStill (by rw [reader, hStep]; rfl) (by rw [writer]; rfl)
  | loaded reader writer => exact hStill (by rw [reader]; rfl) (by rw [writer]; rfl)
  | store reader writer asked burst readMoved writeMoved hTable =>
    cases hStep : i.writeStep with
    | true => exact hFollows.next_of_store i w.patient reader writer asked burst readMoved writeMoved hTable hStep
    | false => exact hStill (by rw [reader]; rfl) (by rw [writer, hStep]; rfl)
  | stored reader writer => exact hStill (by rw [reader]; rfl) (by rw [writer]; rfl)

end Simulation

structure Resting (d : Buffered h) : Prop where
  idle : h.idle d.state = true
  reader : d.reader = .idle
  writer : d.writer = .idle
  counted : d.buffer.Counted
  count : d.buffer.dmaCntR = 0

/-- The client that moves whole sets, when no set is being moved. -/
def atRest (d : Buffered h) : h.Client := ⟨d.state, d.buffer.bufferR, false, false⟩

namespace Resting

variable {d : Buffered h} (hResting : d.Resting)
include hResting

theorem free : d.atRest.Free := ⟨hResting.idle, rfl, rfl⟩

theorem follows (memory : Dram) : Follows memory d d.atRest (tableOf memory) :=
  ⟨rfl, rfl, hResting.counted, .rest hResting.reader hResting.writer hResting.count rfl rfl rfl⟩

end Resting

theorem Follows.tableOf_eq {d : Buffered h} {memory : Dram} {c : h.Client} {table : BitVec params.pPageW → SetWords}
    (hFollows : Follows memory d c table) {t : BitVec params.pPageW} (hApart : h.storing d.state ≠ some t) :
    tableOf memory t = table t := by
  cases hFollows.stage with
  | rest _ _ _ _ _ hTable => rw [hTable]
  | load _ _ _ _ _ _ _ hTable => rw [hTable]
  | loaded _ _ _ _ _ _ hTable => rw [hTable]
  | store _ _ asked _ _ _ hTable =>
    rw [hTable]
    exact Function.update_of_ne (fun ht => hApart (by rw [asked, ht])) _ _
  | stored _ _ _ _ _ _ hTable => rw [hTable]

/-- A handler at rest that accepts nothing stays at rest and leaves the memory alone. -/
theorem Resting.next {write : SetWords → PageSetBufferWriteRequestPacket params → SetWords}
    {effect : Effect (BitVec params.pPageW) SetWords ω ε} {serving : Txn SetWords ω ε → h.Client → Prop}
    (hServes : h.Serves write effect serving) {d : Buffered h} (hResting : d.Resting) (w : Wiring h) (memory : Dram)
    (i : Input h) (hAccept : h.accept d.state i.handler = none) :
    (d.next w memory i).Resting ∧ d.nextMemory w memory i = memory := by
  obtain ⟨hLoading, hStoring⟩ := hServes.quiet hResting.idle
  have hRead : d.reader.word i.readStep = none := by rw [hResting.reader]; rfl
  have hWrite : d.writer.word i.writeStep = none := by rw [hResting.writer]; rfl
  have hBuffer := PageTableSetBuffer.next_of_quiet (dataI_of_word w memory i hRead)
    (dataO_of_word w memory i hWrite)
  refine ⟨⟨hServes.rest _ hResting.idle hAccept, ?_, ?_, hResting.counted.next, ?_⟩, ?_⟩
  · rw [Buffered.next, hResting.reader, hLoading, Option.map_none, Transfer.next_idle_none]
  · rw [Buffered.next, hResting.writer, hStoring, Option.map_none, Transfer.next_idle_none]
  · exact (congrArg PageTableSetBuffer.dmaCntR hBuffer).trans hResting.count
  · rw [nextMemory, hWrite]

theorem Follows.resting {d : Buffered h} {memory : Dram} {c : h.Client} {table : BitVec params.pPageW → SetWords}
    (hFollows : Follows memory d c table) (hFree : c.Free) (hQuiet : ∀ {s}, h.idle s = true → h.loading s = none ∧ h.storing s = none) :
    d.Resting ∧ tableOf memory = table := by
  have hIdle : h.idle d.state = true := by rw [← hFollows.state]; exact hFree.idle
  obtain ⟨hLoading, hStoring⟩ := hQuiet hIdle
  cases hFollows.stage with
  | rest reader writer count _ _ hTable => exact ⟨⟨hIdle, reader, writer, hFollows.counted, count⟩, hTable⟩
  | load _ _ asked => exact absurd (asked.symm.trans hLoading) (Option.some_ne_none _)
  | loaded _ _ asked => exact absurd (asked.symm.trans hLoading) (Option.some_ne_none _)
  | store _ _ asked => exact absurd (asked.symm.trans hStoring) (Option.some_ne_none _)
  | stored _ _ asked => exact absurd (asked.symm.trans hStoring) (Option.some_ne_none _)

end Buffered

end KnockoutKraken.Mmu
