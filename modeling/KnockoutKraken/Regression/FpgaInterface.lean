import KnockoutKraken.Library.Calls
import Mathlib.Data.BitVec
import Mathlib.Logic.Function.Basic

/-!
# The client of the board

The client reads and writes words of 32 bits behind a socket, and
returns the code of the first call that fails. The state of a thread is
moved word by word, the lower half of each in front of the upper one.
-/

namespace KnockoutKraken.Regression

open Library

structure AXIBaseAddress where
  axilBase : BitVec 32
  tt : BitVec 32
  transplantData : BitVec 32

/-- A descriptor is negative as long as the socket is not open. -/
structure FPGAContext where
  axilFd : Int
  baseAddress : AXIBaseAddress

/-- The addresses that `initFPGAContext` fills in. -/
def initBaseAddress : AXIBaseAddress := ⟨0, 0x8000, 0⟩

inductive AXILCall where
  | write (addr data : BitVec 32)
  | read (addr : BitVec 32)
deriving DecidableEq

/-- A function of the client; the answer to a write is an acknowledgement. A call fails with the code of the socket. -/
abbrev Host := Calls AXILCall (BitVec 32) Int

namespace Host

variable (c : FPGAContext)

def writeAXIL (addr data : BitVec 32) : Host Unit :=
  if c.axilFd < 0 then .fail (-1) else .call (.write addr data) fun _ => .ret ()

def readAXIL (addr : BitVec 32) : Host (BitVec 32) :=
  if c.axilFd < 0 then .fail (-1) else .call (.read addr) .ret

def baseOffset (threadId : BitVec 32) : BitVec 32 :=
  c.baseAddress.axilBase + c.baseAddress.transplantData + (threadId <<< 7) * 4

def pushStateLoop (base : BitVec 32) (state : Nat → BitVec 64) : Nat → Nat → Host Unit
  | 0, _ => pure ()
  | left + 1, reg => do
    writeAXIL c (base + BitVec.ofNat 32 (2 * reg * 4)) ((state reg).setWidth 32)
    writeAXIL c (base + BitVec.ofNat 32 ((2 * reg + 1) * 4)) ((state reg >>> 32).setWidth 32)
    pushStateLoop base state left (reg + 1)

def transplantPushState (threadId : BitVec 32) (state : Nat → BitVec 64) (regCount : Nat) : Host Unit :=
  pushStateLoop c (baseOffset c threadId) state regCount 0

def getStateLoop (base : BitVec 32) : Nat → Nat → (Nat → BitVec 64) → Host (Nat → BitVec 64)
  | 0, _, state => pure state
  | left + 1, reg, state => do
    let regVal1 ← readAXIL c (base + BitVec.ofNat 32 (2 * reg * 4))
    let regVal2 ← readAXIL c (base + BitVec.ofNat 32 ((2 * reg + 1) * 4))
    getStateLoop base left (reg + 1) (Function.update state reg (regVal1.setWidth 64 ||| regVal2.setWidth 64 <<< 32))

/-- `state` is what the caller had before. -/
def transplantGetState (threadId : BitVec 32) (state : Nat → BitVec 64) (regCount : Nat) : Host (Nat → BitVec 64) :=
  getStateLoop c (baseOffset c threadId) regCount 0 state

/-- The words of a state: the registers, the program counter, the stack pointer and the flags. -/
def totRegs : Nat := 35

def threadAddr (threadId : BitVec 32) : BitVec 32 := c.baseAddress.axilBase + c.baseAddress.tt + threadId * 4

def registerThreadWithProcess (threadId processId : BitVec 32) : Host Unit := writeAXIL c (threadAddr c threadId) processId

def registerAndPushState (threadId processId : BitVec 32) (state : Nat → BitVec 64) : Host Unit := do
  registerThreadWithProcess c threadId processId
  transplantPushState c threadId state totRegs

def transplantBack (threadId : BitVec 32) (state : Nat → BitVec 64) : Host (Nat → BitVec 64) := do
  registerThreadWithProcess c threadId 0
  transplantGetState c threadId state totRegs

section Traces

variable {c}

theorem does_writeAXIL {addr data : BitVec 32} {calls : List (AXILCall × BitVec 32)} {u : Unit}
    (h : (writeAXIL c addr data).Does calls (.ok u)) : ∃ ack, calls = [(.write addr data, ack)] := by
  rw [writeAXIL] at h
  split at h
  · cases h
  · obtain ⟨ack, rest, rfl, hRest⟩ := Calls.does_call_ok_iff.mp h
    obtain ⟨rfl, -⟩ := Calls.does_ret_iff.mp hRest
    exact ⟨ack, rfl⟩

theorem does_readAXIL {addr data : BitVec 32} {calls : List (AXILCall × BitVec 32)}
    (h : (readAXIL c addr).Does calls (.ok data)) : calls = [(.read addr, data)] := by
  rw [readAXIL] at h
  split at h
  · cases h
  · obtain ⟨answer, rest, rfl, hRest⟩ := Calls.does_call_ok_iff.mp h
    obtain ⟨rfl, hData⟩ := Calls.does_ret_iff.mp hRest
    cases hData
    rfl

/-- Without a socket no call is made. -/
theorem does_registered_closed (hClosed : c.axilFd < 0) {threadId processId : BitVec 32} {α : Type} {p : Host α}
    {calls : List (AXILCall × BitVec 32)} {result : Except Int α}
    (h : (registerThreadWithProcess c threadId processId >>= fun _ => p).Does calls result) :
    calls = [] ∧ result = .error (-1) := by
  rw [registerThreadWithProcess, writeAXIL, if_pos hClosed] at h
  cases h
  exact ⟨rfl, rfl⟩

def halfAddr (base : BitVec 32) (reg : Nat) (odd : Bool) : BitVec 32 := base + BitVec.ofNat 32 ((2 * reg + odd.toNat) * 4)

def half (word : BitVec 64) (odd : Bool) : BitVec 32 := if odd then (word >>> 32).setWidth 32 else word.setWidth 32

theorem does_pushStateLoop {base : BitVec 32} {state : Nat → BitVec 64} {left reg : Nat} {calls : List (AXILCall × BitVec 32)}
    {u : Unit} (h : (pushStateLoop c base state left reg).Does calls (.ok u)) :
    calls.map Prod.fst = (List.range' reg left).flatMap fun m =>
      [false, true].map fun odd => .write (halfAddr base m odd) (half (state m) odd) := by
  induction left generalizing reg calls with
  | zero =>
    obtain ⟨rfl, -⟩ := Calls.does_ret_iff.mp h
    rfl
  | succ left ih =>
    obtain ⟨first, rest, _, rfl, hFirst, hRest⟩ := Calls.does_bind_ok_iff.mp h
    obtain ⟨second, last, _, rfl, hSecond, hLast⟩ := Calls.does_bind_ok_iff.mp hRest
    obtain ⟨ack, rfl⟩ := does_writeAXIL hFirst
    obtain ⟨ack', rfl⟩ := does_writeAXIL hSecond
    rw [List.range'_succ, List.flatMap_cons, ← ih hLast]
    rfl

/-- What is read half by half is what the returned state has, and nothing before it has changed. -/
theorem does_getStateLoop {base : BitVec 32} {state state' : Nat → BitVec 64} {left reg : Nat}
    {calls : List (AXILCall × BitVec 32)} (h : (getStateLoop c base left reg state).Does calls (.ok state')) :
    (∀ m < reg, state' m = state m) ∧ calls = (List.range' reg left).flatMap fun m =>
      [false, true].map fun odd => (.read (halfAddr base m odd), half (state' m) odd) := by
  induction left generalizing reg calls state with
  | zero =>
    obtain ⟨rfl, hState⟩ := Calls.does_ret_iff.mp h
    cases hState
    exact ⟨fun _ _ => rfl, rfl⟩
  | succ left ih =>
    obtain ⟨first, rest, regVal1, rfl, hFirst, hRest⟩ := Calls.does_bind_ok_iff.mp h
    obtain ⟨second, last, regVal2, rfl, hSecond, hLast⟩ := Calls.does_bind_ok_iff.mp hRest
    obtain rfl := does_readAXIL hFirst
    obtain rfl := does_readAXIL hSecond
    obtain ⟨hKept, hCalls⟩ := ih hLast
    have hReg : state' reg = regVal1.setWidth 64 ||| regVal2.setWidth 64 <<< 32 := by
      rw [hKept reg (Nat.lt_succ_self reg), Function.update_self]
    have hLow : half (state' reg) false = regVal1 := by
      rw [hReg]
      apply BitVec.eq_of_getLsbD_eq
      intro j hj
      simp [half, hj]
    have hHigh : half (state' reg) true = regVal2 := by
      rw [hReg]
      apply BitVec.eq_of_getLsbD_eq
      intro j hj
      simp [half, hj, show 32 + j < 64 by omega]
    refine ⟨fun m hm => ?_, ?_⟩
    · rw [hKept m (Nat.lt_succ_of_lt hm), Function.update_of_ne (Nat.ne_of_lt hm)]
    · rw [List.range'_succ, List.flatMap_cons, ← hCalls]
      simp [halfAddr, hLow, hHigh]

end Traces

end Host

end KnockoutKraken.Regression
