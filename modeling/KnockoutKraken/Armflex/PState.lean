import KnockoutKraken.Library.Indices
import Mathlib.Data.BitVec

/-!
# The architectural state

The general purpose registers of all threads lie in one memory, which is
addressed by the thread followed by the register; program counters and
condition flags have a memory each.
-/

namespace KnockoutKraken.Armflex

abbrev Word := BitVec 64

/-- Address bits of a memory with a row for each register of each thread; block memories have 1024 rows at least. -/
def registerAddrW (thidW : Nat) : Nat := max 10 (thidW + 5)

structure PStateRegs where
  pc : Word
  nzcv : BitVec 4
deriving DecidableEq

structure RFileWrite (thidW : Nat) where
  addr : BitVec 5
  data : Word
  en : Bool
  tag : BitVec thidW
deriving DecidableEq

/-- A write of the state registers of the tagged thread. -/
structure PStateWrite (thidW : Nat) where
  valid : Bool
  tag : BitVec thidW
  bits : PStateRegs
deriving DecidableEq

structure ArchState (thidW : Nat) where
  rfile : BitVec (registerAddrW thidW) → Word
  pcMem : BitVec thidW → Word
  nzcvMem : BitVec thidW → BitVec 4

namespace ArchState

variable {thidW : Nat}

def rfileRow (tag : BitVec thidW) (addr : BitVec 5) : BitVec (registerAddrW thidW) := (tag ++ addr).setWidth _

theorem toNat_append {n k : Nat} (x : BitVec n) (y : BitVec k) : (x ++ y).toNat = x.toNat * 2 ^ k + y.toNat := by
  rw [BitVec.toNat_append, ← Nat.shiftLeft_add_eq_or_of_lt y.isLt, Nat.shiftLeft_eq]

theorem append_injective {n k : Nat} {x x' : BitVec n} {y y' : BitVec k} (h : x ++ y = x' ++ y') : x = x' ∧ y = y' := by
  have hNat := congrArg BitVec.toNat h
  rw [toNat_append, toNat_append] at hNat
  have hy := y.isLt
  have hy' := y'.isLt
  have hLow : y.toNat = y'.toNat := by
    have := congrArg (· % 2 ^ k) hNat
    simpa [Nat.mul_add_mod', Nat.mod_eq_of_lt hy, Nat.mod_eq_of_lt hy'] using this
  refine ⟨BitVec.eq_of_toNat_eq ?_, BitVec.eq_of_toNat_eq hLow⟩
  rw [hLow] at hNat
  exact Nat.eq_of_mul_eq_mul_right (Nat.two_pow_pos k) (Nat.add_right_cancel hNat)

theorem setWidth_injective {n m : Nat} (h : n ≤ m) {x y : BitVec n} (hEq : x.setWidth m = y.setWidth m) : x = y := by
  have hBack := congrArg (fun v => v.setWidth n) hEq
  simpa [BitVec.setWidth_setWidth_of_le _ h] using hBack

theorem rfileRow_injective {tag tag' : BitVec thidW} {addr addr' : BitVec 5} (h : rfileRow tag addr = rfileRow tag' addr') :
    tag = tag' ∧ addr = addr' :=
  append_injective (setWidth_injective (Nat.le_max_right _ _) h)

variable (s : ArchState thidW) (wr : RFileWrite thidW) (commit : PStateWrite thidW)

def reg (tag : BitVec thidW) (addr : BitVec 5) : Word := s.rfile (rfileRow tag addr)

def pregs (tag : BitVec thidW) : PStateRegs := ⟨s.pcMem tag, s.nzcvMem tag⟩

def next : ArchState thidW where
  rfile row := if wr.en && decide (row = rfileRow wr.tag wr.addr) then wr.data else s.rfile row
  pcMem tag := if commit.valid && decide (tag = commit.tag) then commit.bits.pc else s.pcMem tag
  nzcvMem tag := if commit.valid && decide (tag = commit.tag) then commit.bits.nzcv else s.nzcvMem tag

theorem reg_next (tag : BitVec thidW) (addr : BitVec 5) : (s.next wr commit).reg tag addr =
    if wr.en = true ∧ tag = wr.tag ∧ addr = wr.addr then wr.data else s.reg tag addr := by
  have hRow : rfileRow tag addr = rfileRow wr.tag wr.addr ↔ tag = wr.tag ∧ addr = wr.addr :=
    ⟨rfileRow_injective, fun ⟨hTag, hAddr⟩ => hTag ▸ hAddr ▸ rfl⟩
  simp only [reg, next, Bool.and_eq_true, decide_eq_true_eq, hRow]

theorem pregs_next (tag : BitVec thidW) : (s.next wr commit).pregs tag =
    if commit.valid = true ∧ tag = commit.tag then commit.bits else s.pregs tag := by
  simp only [pregs, next, Bool.and_eq_true, decide_eq_true_eq]
  split <;> rfl

end ArchState

end KnockoutKraken.Armflex
