import KnockoutKraken.Library.BitSet
import KnockoutKraken.Library.Tokens

/-!
# Stage registers and the thread arbiter

A stage register holds one tagged item and takes the next one in the
cycle its item leaves. The arbiter starts its search for a ready thread
one behind the thread it chose last.
-/

namespace KnockoutKraken.Util

open Library

universe u v

/-- The registers of an item count only while they are valid. -/
structure FlushReg (τ : Type u) (α : Type v) where
  item : Option (τ × α)

namespace FlushReg

variable {τ : Type u} {α : Type v} [DecidableEq τ] (r : FlushReg τ α) (flush : Option τ) (deqReady : Bool)

def flushed : Bool := r.item.any fun item => decide (flush = some item.1)

def enqReady : Bool := r.item.isNone || deqReady || r.flushed flush

def deq : Option (τ × α) := if r.flushed flush then none else r.item

def next (enq : Option (τ × α)) : FlushReg τ α := if r.enqReady flush deqReady then ⟨enq⟩ else r

theorem held_next (t : τ) (enq : Option (τ × α)) :
    held Prod.fst t (r.next none deqReady enq).item + held Prod.fst t (if deqReady then r.item else none) =
      held Prod.fst t r.item + held Prod.fst t (if r.enqReady none deqReady then enq else none) := by
  obtain ⟨item⟩ := r
  rw [next, enqReady, flushed]
  cases item <;> cases deqReady <;> simp [Nat.add_comm]

theorem item_of_next {flush : Option τ} {deqReady : Bool} {enq : Option (τ × α)} {item : τ × α}
    (h : (r.next flush deqReady enq).item = some item) : r.item = some item ∨ enq = some item := by
  rw [next] at h
  split at h
  · exact .inr h
  · exact .inl h

end FlushReg

structure RoundRobinArbiter (w : Nat) where
  curr : BitVec w
deriving DecidableEq

namespace RoundRobinArbiter

variable {w : Nat} (a : RoundRobinArbiter w) (ready : BitVec (2 ^ w))

def reset (w : Nat) : RoundRobinArbiter w := ⟨0⟩

def rotateRight (norm : BitVec (2 ^ w)) (rot : BitVec w) : BitVec (2 ^ w) :=
  norm <<< (~~~rot + 1).toNat ||| norm >>> rot.toNat

def valid : Bool := decide (ready ≠ 0)

def thread : BitVec w := a.curr + priorityEncoder (rotateRight ready a.curr)

def next (nextReady : Bool) : RoundRobinArbiter w := if nextReady && valid ready then ⟨a.thread ready + 1⟩ else a

theorem toNat_not_add_one (rot : BitVec w) : (~~~rot + 1).toNat = (2 ^ w - rot.toNat) % 2 ^ w := by
  have hNeg : ~~~rot + 1 = -rot := (BitVec.neg_eq_not_add rot).symm
  rw [hNeg, BitVec.toNat_neg]

theorem getLsbD_rotateRight (norm : BitVec (2 ^ w)) (rot : BitVec w) {j : Nat} (hj : j < 2 ^ w) :
    (rotateRight norm rot).getLsbD j = norm.getLsbD ((rot.toNat + j) % 2 ^ w) := by
  have hRot := rot.isLt
  rw [rotateRight, BitVec.getLsbD_or, BitVec.getLsbD_shiftLeft, BitVec.getLsbD_ushiftRight, toNat_not_add_one]
  by_cases hZero : rot.toNat = 0
  · simp [hZero, hj, Nat.mod_eq_of_lt]
  · have hSub : (2 ^ w - rot.toNat) % 2 ^ w = 2 ^ w - rot.toNat := Nat.mod_eq_of_lt (by omega)
    rw [hSub]
    by_cases hWrap : rot.toNat + j < 2 ^ w
    · have hLow : j < 2 ^ w - rot.toNat := by omega
      simp [hLow, Nat.mod_eq_of_lt hWrap]
    · have hHigh : ¬ j < 2 ^ w - rot.toNat := by omega
      have hMod : (rot.toNat + j) % 2 ^ w = j - (2 ^ w - rot.toNat) := by
        rw [Nat.mod_eq_sub_mod (by omega), Nat.mod_eq_of_lt (by omega)]
        omega
      simp [hj, hHigh, hMod, BitVec.getLsbD_of_ge norm _ (Nat.le_of_not_lt hWrap)]

/-- The thread the arbiter names is ready when any is. -/
theorem getLsbD_thread (h : valid ready = true) : ready.getLsbD (a.thread ready).toNat = true := by
  obtain ⟨i, hi⟩ := exists_getLsbD_of_ne_zero (of_decide_eq_true h)
  have hLt : i < 2 ^ w := BitVec.lt_of_getLsbD hi
  have hCurr := a.curr.isLt
  have hRotated : (rotateRight ready a.curr).getLsbD ((2 ^ w - a.curr.toNat + i) % 2 ^ w) = true := by
    rw [getLsbD_rotateRight ready a.curr (Nat.mod_lt _ (Nat.two_pow_pos w)), Nat.add_mod_mod,
      show a.curr.toNat + (2 ^ w - a.curr.toNat + i) = i + 2 ^ w by omega, Nat.add_mod_right, Nat.mod_eq_of_lt hLt]
    exact hi
  have hFirst := (priorityEncoder_spec hRotated).1
  rwa [getLsbD_rotateRight ready a.curr (priorityEncoder _).isLt, ← BitVec.toNat_add] at hFirst

end RoundRobinArbiter

end KnockoutKraken.Util
