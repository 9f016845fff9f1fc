import Mathlib.Data.BitVec

/-!
# The bytes of a word

A word is read byte by byte, byte zero in the low bits. A word of whole
bytes is what its bytes are, and a shift by whole bytes moves them.
-/

namespace KnockoutKraken.Library

def byteOf {n : Nat} (x : BitVec n) (k : Nat) : BitVec 8 := x.extractLsb' (8 * k) 8

theorem getLsbD_byteOf {n : Nat} (x : BitVec n) (k i : Nat) :
    (byteOf x k).getLsbD i = (decide (i < 8) && x.getLsbD (8 * k + i)) := by
  rw [byteOf, BitVec.getLsbD_extractLsb']

theorem byte_ext {b c : BitVec 8} (h : ∀ i < 8, b.getLsbD i = c.getLsbD i) : b = c := BitVec.eq_of_getLsbD_eq h

theorem eq_of_byteOf {n : Nat} {x y : BitVec (8 * n)} (h : ∀ k < n, byteOf x k = byteOf y k) : x = y := by
  apply BitVec.eq_of_getLsbD_eq
  intro i hi
  have hBit := congrArg (fun b => b.getLsbD (i % 8)) (h (i / 8) (by omega))
  simpa only [getLsbD_byteOf, decide_eq_true (Nat.mod_lt i (Nat.zero_lt_succ 7)), Bool.true_and, Nat.div_add_mod] using hBit

section Operations

variable {n : Nat} (x y : BitVec n) (s k : Nat)

theorem byteOf_or : byteOf (x ||| y) k = byteOf x k ||| byteOf y k := by
  apply byte_ext
  intro i hi
  rw [BitVec.getLsbD_or, getLsbD_byteOf, getLsbD_byteOf, getLsbD_byteOf, BitVec.getLsbD_or, Bool.and_or_distrib_left]

theorem byteOf_ushiftRight : byteOf (x >>> (8 * s)) k = byteOf x (s + k) := by
  apply byte_ext
  intro i _
  rw [getLsbD_byteOf, getLsbD_byteOf, BitVec.getLsbD_ushiftRight, Nat.mul_add, Nat.add_assoc]

variable {k} in
theorem byteOf_shiftLeft (hk : 8 * k + 8 ≤ n) : byteOf (x <<< (8 * s)) k = if k < s then 0 else byteOf x (k - s) := by
  apply byte_ext
  intro i hi
  rw [getLsbD_byteOf, BitVec.getLsbD_shiftLeft, decide_eq_true (show 8 * k + i < n by omega), Bool.true_and]
  split
  · next hLow => simp [show 8 * k + i < 8 * s by omega]
  · next hHigh =>
    rw [getLsbD_byteOf, show 8 * k + i - 8 * s = 8 * (k - s) + i by omega]
    simp [show ¬ 8 * k + i < 8 * s by omega]

variable {k} in
theorem byteOf_setWidth {m : Nat} (hk : 8 * k + 8 ≤ m) : byteOf (x.setWidth m) k = byteOf x k := by
  apply byte_ext
  intro i hi
  rw [getLsbD_byteOf, getLsbD_byteOf, BitVec.getLsbD_setWidth, decide_eq_true (show 8 * k + i < m by omega), Bool.true_and]

end Operations

def ofBytes : (n : Nat) → (Nat → BitVec 8) → BitVec (8 * n)
  | 0, _ => 0
  | n + 1, f => (f n ++ ofBytes n f).cast (by omega)

theorem byteOf_ofBytes {n k : Nat} (f : Nat → BitVec 8) (hk : k < n) : byteOf (ofBytes n f) k = f k := by
  induction n with
  | zero => exact absurd hk (Nat.not_lt_zero k)
  | succ n ih =>
    apply byte_ext
    intro i hi
    rw [getLsbD_byteOf, decide_eq_true hi, Bool.true_and, ofBytes, BitVec.getLsbD_cast, BitVec.getLsbD_append]
    rcases Nat.lt_or_eq_of_le (Nat.le_of_lt_succ hk) with hLow | rfl
    · rw [if_pos (show 8 * k + i < 8 * n by omega), ← ih hLow, getLsbD_byteOf, decide_eq_true hi, Bool.true_and]
    · rw [if_neg (show ¬ 8 * k + i < 8 * k by omega), Nat.add_sub_cancel_left]

theorem eq_ofBytes {n : Nat} {x : BitVec (8 * n)} {f : Nat → BitVec 8} (h : ∀ k < n, byteOf x k = f k) : x = ofBytes n f :=
  eq_of_byteOf fun k hk => (h k hk).trans (byteOf_ofBytes f hk).symm

section Aligned

variable {size block a j : Nat}

/-- Bytes from an aligned address on lie in one block. -/
theorem aligned_div (hSize : 0 < size) (hBlock : size ∣ block) (ha : size ∣ a) (hj : j < size) : (a + j) / block = a / block := by
  obtain ⟨c, rfl⟩ := hBlock
  obtain ⟨q, rfl⟩ := ha
  rw [← Nat.div_div_eq_div_mul, ← Nat.div_div_eq_div_mul, Nat.mul_add_div hSize, Nat.div_eq_of_lt hj, Nat.add_zero,
    Nat.mul_div_cancel_left q hSize]

theorem aligned_mod (hSize : 0 < size) (hBlock : size ∣ block) (ha : size ∣ a) (hj : j < size) :
    (a + j) % block = a % block + j := by
  have hDiv := aligned_div hSize hBlock ha hj
  have hFar := Nat.div_add_mod (a + j) block
  have hNear := Nat.div_add_mod a block
  rw [hDiv] at hFar
  omega

end Aligned

end KnockoutKraken.Library
