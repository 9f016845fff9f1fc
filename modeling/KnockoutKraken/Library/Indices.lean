import Mathlib.Algebra.Ring.Nat

/-!
# Numerals for indices

The vectors of the design have `n + 1` elements or one of a few fixed
lengths. Each of these has its instance by name, before all others, so that
a numeral of `Fin` is the same term everywhere.
-/

namespace KnockoutKraken.Library

instance (priority := 1100) neZeroSucc (n : Nat) : NeZero (n + 1) := ⟨Nat.succ_ne_zero n⟩

instance (priority := 1200) neZeroOne : NeZero 1 := ⟨Nat.one_ne_zero⟩

instance (priority := 1200) neZeroTwo : NeZero 2 := ⟨Nat.succ_ne_zero 1⟩

instance (priority := 1200) neZeroThree : NeZero 3 := ⟨Nat.succ_ne_zero 2⟩

instance (priority := 1200) neZeroSixteen : NeZero 16 := ⟨Nat.succ_ne_zero 15⟩

end KnockoutKraken.Library
