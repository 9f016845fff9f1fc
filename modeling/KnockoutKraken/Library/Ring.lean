import Mathlib.Data.BitVec

/-!
# Rings of cells

A memory addressed by `k` bits, read from a pointer on. The pointer wraps
around; up to `2 ^ k` cells are different ones.
-/

namespace KnockoutKraken.Library

universe u

variable {k : Nat} {α : Type u}

/-- The first `n` cells from the pointer on. -/
def cells (ram : BitVec k → α) (ptr : BitVec k) (n : Nat) : List α := (List.range n).map fun m => ram (ptr + BitVec.ofNat k m)

variable (ram : BitVec k → α) (ptr : BitVec k)

@[simp] theorem length_cells (n : Nat) : (cells ram ptr n).length = n := by rw [cells, List.length_map, List.length_range]

theorem ptr_succ (m : Nat) : ptr + BitVec.ofNat k (m + 1) = ptr + 1 + BitVec.ofNat k m := by
  rw [BitVec.ofNat_add, BitVec.add_assoc, BitVec.add_comm (BitVec.ofNat k m)]
  rfl

theorem cells_succ (n : Nat) : cells ram ptr (n + 1) = ram ptr :: cells ram (ptr + 1) n := by
  rw [cells, List.range_succ_eq_map, List.map_cons, List.map_map]
  refine congrArg₂ List.cons (by simp) (List.map_congr_left fun m _ => congrArg ram (ptr_succ ptr m))

theorem cells_concat (n : Nat) : cells ram ptr (n + 1) = cells ram ptr n ++ [ram (ptr + BitVec.ofNat k n)] := by
  rw [cells, List.range_succ, List.map_append, List.map_singleton, cells]

variable {ram} {ptr}

theorem ptr_injective {n m : Nat} (hn : n < 2 ^ k) (hm : m < 2 ^ k)
    (h : ptr + BitVec.ofNat k n = ptr + BitVec.ofNat k m) : n = m := by
  have hNat := congrArg BitVec.toNat ((BitVec.add_right_inj ptr).mp h)
  rwa [BitVec.toNat_ofNat, BitVec.toNat_ofNat, Nat.mod_eq_of_lt hn, Nat.mod_eq_of_lt hm] at hNat

/-- The pointer is back where it was after all cells, and not before. -/
theorem ptr_closed_iff {n : Nat} (hPos : 0 < n) (hLe : n ≤ 2 ^ k) : ptr + BitVec.ofNat k n = ptr ↔ n = 2 ^ k := by
  rw [BitVec.add_right_eq_self, ← BitVec.toNat_inj, BitVec.toNat_ofNat, BitVec.toNat_zero]
  constructor
  · intro hZero
    exact Nat.le_antisymm hLe (Nat.le_of_dvd hPos (Nat.dvd_of_mod_eq_zero hZero))
  · rintro rfl
    exact Nat.mod_self _

theorem cells_congr {ram' : BitVec k → α} {n : Nat}
    (h : ∀ m < n, ram (ptr + BitVec.ofNat k m) = ram' (ptr + BitVec.ofNat k m)) : cells ram ptr n = cells ram' ptr n :=
  List.map_congr_left fun m hm => h m (List.mem_range.mp hm)

theorem cells_write_behind {n : Nat} (hn : n < 2 ^ k) {ram' : BitVec k → α}
    (h : ∀ a, a ≠ ptr + BitVec.ofNat k n → ram' a = ram a) : cells ram' ptr n = cells ram ptr n :=
  cells_congr fun _ hm => h _ fun hEq => hm.ne (ptr_injective (hm.trans hn) hn hEq)

end KnockoutKraken.Library
