import Mathlib.Data.BitVec

/-!
# Words given bit by bit
-/

namespace KnockoutKraken.Library

/-- The word of `n` bits given one by one, bit zero first. -/
def ofBits : (n : Nat) → (Nat → Bool) → BitVec n
  | 0, _ => 0
  | n + 1, f => BitVec.cons (f n) (ofBits n f)

@[simp] theorem getLsbD_ofBits (n : Nat) (f : Nat → Bool) (i : Nat) :
    (ofBits n f).getLsbD i = (decide (i < n) && f i) := by
  induction n with
  | zero => simp [ofBits]
  | succ n ih =>
    rw [ofBits, BitVec.getLsbD_cons, ih]
    rcases Nat.lt_trichotomy i n with hLt | rfl | hGt
    · simp [Nat.ne_of_lt hLt, hLt, Nat.lt_succ_of_lt hLt]
    · simp
    · simp [Nat.ne_of_gt hGt, Nat.lt_asymm hGt, show ¬ i < n + 1 by omega]

theorem getLsbD_rotateRight_mod {n : Nat} (x : BitVec n) {r i : Nat} (hr : r < n) (hi : i < n) :
    (x.rotateRight r).getLsbD i = x.getLsbD ((i + r) % n) := by
  rw [BitVec.getLsbD_rotateRight, Nat.mod_eq_of_lt hr, Bool.cond_decide]
  by_cases hWrap : i < n - r
  · rw [if_pos hWrap, Nat.mod_eq_of_lt (by omega), Nat.add_comm]
  · have hIndex : (i + r) % n = i - (n - r) := by
      rw [show i + r = i - (n - r) + n by omega, Nat.add_mod_right, Nat.mod_eq_of_lt (by omega)]
    rw [if_neg hWrap, hIndex, decide_eq_true hi, Bool.true_and]

end KnockoutKraken.Library
