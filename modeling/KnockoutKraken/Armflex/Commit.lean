import KnockoutKraken.Armflex.PState
import KnockoutKraken.Util.RamQueue

/-!
# The commit unit

Executed instructions wait in a queue with one place a thread. The head
writes its one to three results back, one a cycle, and leaves with the
last of them; in that cycle it updates the program counter and the flags,
unless it has to be transplanted.
-/

namespace KnockoutKraken.Armflex

open Util

structure CommitInst (thidW : Nat) where
  tag : BitVec thidW
  rd : Fin 3 → Option (BitVec 5)
  res : Fin 3 → Word
  nzcv : Option (BitVec 4)
  brTaken : Option Word
  exceptions : Bool
  undef : Bool
  is32bit : Bool

namespace CommitInst

variable {thidW : Nat} (inst : CommitInst thidW)

def transplant : Bool := inst.undef || inst.exceptions

/-- Result `k` as it is written back. -/
def data (k : Fin 3) : Word := if inst.is32bit then ((inst.res k).setWidth 32).setWidth 64 else inst.res k

def update (curr : PStateRegs) : PStateRegs :=
  if inst.transplant then curr else ⟨inst.brTaken.getD (curr.pc + 4), inst.nzcv.getD curr.nzcv⟩

def write (k : Fin 3) : RFileWrite thidW := ⟨(inst.rd k).getD 0, inst.data k, (inst.rd k).isSome, inst.tag⟩

end CommitInst

inductive WbState where
  | sWB | sWB1 | sWB2
deriving DecidableEq

def WbState.index : WbState → Fin 3
  | sWB => 0
  | sWB1 => 1
  | sWB2 => 2

structure CommitUnit (thidW : Nat) where
  commitQueue : RamQueue thidW (CommitInst thidW)
  wbState : WbState

namespace CommitUnit

open WbState

variable {thidW : Nat} (u : CommitUnit thidW) (ready : Bool)

/-- What the output of the queue shows, whether it is valid or left over. -/
def head : CommitInst thidW := u.commitQueue.deqBits

def canWB : Bool := ready && u.commitQueue.deqValid

def wbStateNext : WbState :=
  if u.canWB ready then
    match u.wbState with
    | sWB => if (u.head.rd 1).isSome then sWB1 else if (u.head.rd 2).isSome then sWB2 else sWB
    | sWB1 => if (u.head.rd 2).isSome then sWB2 else sWB
    | sWB2 => sWB
  else u.wbState

def deqReady : Bool := u.canWB ready && decide (u.wbStateNext ready = sWB)

/-- The head commits in this cycle. -/
def finalCommit : Bool := u.commitQueue.deqValid && u.deqReady ready

def enqReady : Bool := u.commitQueue.enqReady true (u.deqReady ready)

def wr : RFileWrite thidW := { u.head.write u.wbState.index with en := u.canWB ready && (u.head.write u.wbState.index).en }

def commited : Option (BitVec thidW) := if u.finalCommit ready then some u.head.tag else none

def transplant : Option (BitVec thidW) :=
  if u.finalCommit ready && u.head.transplant then some u.head.tag else none

def regsNext (curr : PStateRegs) : PStateRegs := if u.finalCommit ready then u.head.update curr else curr

def next (enq : Option (CommitInst thidW)) : CommitUnit thidW where
  commitQueue := u.commitQueue.next true enq (u.deqReady ready)
  wbState := u.wbStateNext ready

end CommitUnit

end KnockoutKraken.Armflex
