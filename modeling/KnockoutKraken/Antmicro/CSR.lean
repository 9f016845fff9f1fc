import KnockoutKraken.Library.BitSet

/-!
# Control and status registers

A register of the host is updated by two agents. `ClearCSR` is set by the
host and cleared by the hardware; a host write takes the whole cycle, so
that the clear bits of that cycle are lost. `SetCSR` is set by the
hardware and cleared by the host, and loses nothing.
-/

namespace KnockoutKraken.Antmicro

open Library

variable {dataWidth : Nat}

/-- What the bus carries to a bank of registers: a write names a register. -/
structure CSRBusWrite (dataWidth : Nat) where
  addr : Nat
  dataOut : BitVec dataWidth

def CSRBusWrite.csr (bus : Option (CSRBusWrite dataWidth)) (i : Nat) : Option (BitVec dataWidth) :=
  (bus.filter fun write => decide (write.addr = i)).map CSRBusWrite.dataOut

def writesBit (dataWrite : Option (BitVec dataWidth)) (t : Nat) : Bool := dataWrite.any fun dataOut => dataOut.getLsbD t

def ClearCSR.next (reg clear : BitVec dataWidth) (dataWrite : Option (BitVec dataWidth)) : BitVec dataWidth :=
  match dataWrite with
  | some dataOut => reg ||| dataOut
  | none => reg &&& ~~~clear

def SetCSR.next (reg set : BitVec dataWidth) (dataWrite : Option (BitVec dataWidth)) : BitVec dataWidth :=
  match dataWrite with
  | some dataOut => (reg &&& ~~~dataOut) ||| set
  | none => reg ||| set

theorem ClearCSR.getLsbD_next (reg clear : BitVec dataWidth) (dataWrite : Option (BitVec dataWidth)) {t : Nat}
    (ht : t < dataWidth) : (ClearCSR.next reg clear dataWrite).getLsbD t =
      (writesBit dataWrite t || reg.getLsbD t && (dataWrite.isSome || !clear.getLsbD t)) := by
  cases dataWrite with
  | none => simp [ClearCSR.next, writesBit, ht]
  | some dataOut => simp [ClearCSR.next, writesBit, Bool.or_comm]

/-- The register is exact in a bit that is not cleared in the cycle of a host write, or written again by it. -/
theorem ClearCSR.exact_iff (reg clear : BitVec dataWidth) (dataWrite : Option (BitVec dataWidth)) {t : Nat}
    (ht : t < dataWidth) : (ClearCSR.next reg clear dataWrite).getLsbD t =
        (writesBit dataWrite t || reg.getLsbD t && !clear.getLsbD t) ↔
      (dataWrite.isSome = true → clear.getLsbD t = true → reg.getLsbD t = true → writesBit dataWrite t = true) := by
  rw [ClearCSR.getLsbD_next reg clear dataWrite ht]
  cases dataWrite.isSome <;> cases clear.getLsbD t <;> cases reg.getLsbD t <;> cases writesBit dataWrite t <;> simp

theorem SetCSR.getLsbD_next (reg set : BitVec dataWidth) (dataWrite : Option (BitVec dataWidth)) {t : Nat}
    (ht : t < dataWidth) : (SetCSR.next reg set dataWrite).getLsbD t =
      (set.getLsbD t || reg.getLsbD t && !writesBit dataWrite t) := by
  cases dataWrite with
  | none => simp [SetCSR.next, writesBit, Bool.or_comm]
  | some dataOut => simp [SetCSR.next, writesBit, ht, Bool.or_comm]

end KnockoutKraken.Antmicro
