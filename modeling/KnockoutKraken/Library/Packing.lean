import Mathlib.Data.BitVec
import Mathlib.Data.Fin.Tuple.Basic

/-!
# Vectors as words

A vector of `n` words of `w` bits is one word of `n * w` bits, element
zero in the low bits. Packing and unpacking are inverse to each other.
-/

namespace KnockoutKraken.Library

variable {w : Nat}

def packVec : (n : Nat) → (Fin n → BitVec w) → BitVec (n * w)
  | 0, _ => 0#(0 * w)
  | n + 1, v => (v (Fin.last n) ++ packVec n (Fin.init v)).cast (by rw [Nat.succ_mul, Nat.add_comm])

def unpackVec {n : Nat} (bits : BitVec (n * w)) (i : Fin n) : BitVec w := bits.extractLsb' (i.val * w) w

theorem extractLsb'_cast {n m : Nat} (h : n = m) (bits : BitVec n) (start len : Nat) :
    (bits.cast h).extractLsb' start len = bits.extractLsb' start len := by
  subst h
  rfl

@[simp] theorem unpackVec_packVec {n : Nat} (v : Fin n → BitVec w) : unpackVec (packVec n v) = v := by
  induction n with
  | zero => exact funext fun i => i.elim0
  | succ n ih =>
    refine funext fun i => ?_
    rw [unpackVec, packVec, extractLsb'_cast]
    cases i using Fin.lastCases with
    | last => rw [Fin.val_last, BitVec.extractLsb'_append_of_eq rfl]
    | cast i =>
      rw [Fin.val_castSucc, BitVec.extractLsb'_append_of_lt i.isLt]
      exact congrFun (ih (Fin.init v)) i

theorem getLsbD_packVec {n j : Nat} (v : Fin n → BitVec w) (i : Fin n) (hj : j < w) :
    (packVec n v).getLsbD (i.val * w + j) = (v i).getLsbD j := by
  have hWord := congrArg (fun word => word.getLsbD j) (congrFun (unpackVec_packVec v) i)
  simpa only [unpackVec, BitVec.getLsbD_extractLsb', decide_eq_true hj, Bool.true_and] using hWord

theorem unpackVec_injective {n : Nat} : Function.Injective (unpackVec : BitVec (n * w) → Fin n → BitVec w) := by
  intro a b hEq
  apply BitVec.eq_of_getLsbD_eq
  intro i hi
  have hw : 0 < w := by
    rcases Nat.eq_zero_or_pos w with rfl | hw
    · simp at hi
    · exact hw
  have hMod := Nat.mod_lt i hw
  have hDiv : i / w < n := Nat.div_lt_of_lt_mul (by rwa [Nat.mul_comm])
  have hWord := congrArg (fun word => word.getLsbD (i % w)) (congrFun hEq ⟨i / w, hDiv⟩)
  simp only [unpackVec, BitVec.getLsbD_extractLsb', decide_eq_true hMod, Bool.true_and] at hWord
  rwa [Nat.div_add_mod'] at hWord

@[simp] theorem packVec_unpackVec {n : Nat} (bits : BitVec (n * w)) : packVec n (unpackVec bits) = bits :=
  unpackVec_injective (unpackVec_packVec _)

end KnockoutKraken.Library
