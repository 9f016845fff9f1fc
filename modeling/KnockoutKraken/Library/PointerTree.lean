import KnockoutKraken.Library.Indices
import Mathlib.Data.Fintype.EquivFin
import Mathlib.Logic.Function.Iterate

/-!
# Trees of pointers

A perfect binary tree with a pointer to one of its halves in every node
points to one leaf. Touching a leaf turns every pointer of its path away
from it. Following the pointers and touching the leaf reached is a
permutation of the trees of a depth, of the period of the number of leaves,
and reaches every leaf once in a period.
-/

namespace KnockoutKraken.Library

inductive PointerTree : Nat → Type
  | leaf : PointerTree 0
  | node {k : Nat} (pointer : Bool) (child : Bool → PointerTree k) : PointerTree (k + 1)

namespace PointerTree

/-- The leaf that the pointers lead to, its bits from the root down. -/
def pointed : {k : Nat} → PointerTree k → Nat
  | 0, leaf => 0
  | k + 1, node pointer child => pointer.toNat * 2 ^ k + (child pointer).pointed

def touch (way : Nat) : {k : Nat} → PointerTree k → PointerTree k
  | 0, leaf => leaf
  | k + 1, node _ child =>
    node (!way.testBit k) (Function.update child (way.testBit k) ((child (way.testBit k)).touch way))

/-- Follow the pointers and touch the leaf reached. -/
def advance {k : Nat} (t : PointerTree k) : PointerTree k := t.touch t.pointed

variable {k : Nat}

theorem pointed_lt (t : PointerTree k) : t.pointed < 2 ^ k := by
  induction t with
  | leaf => exact Nat.one_pos
  | @node k pointer child ih =>
    have hChild := ih pointer
    rw [pointed, Nat.pow_succ]
    cases pointer <;> simp only [Bool.toNat_true, Bool.toNat_false] <;> omega

theorem testBit_pointed_node (pointer : Bool) (child : Bool → PointerTree k) (i : Nat) :
    (node pointer child).pointed.testBit i = if i < k then (child pointer).pointed.testBit i else
      pointer.toNat.testBit (i - k) := by
  rw [pointed, Nat.mul_comm, Nat.testBit_two_pow_mul_add _ (pointed_lt _)]

theorem testBit_pointed_root (pointer : Bool) (child : Bool → PointerTree k) :
    (node pointer child).pointed.testBit k = pointer := by
  rw [testBit_pointed_node, if_neg (Nat.lt_irrefl k), Nat.sub_self]
  cases pointer <;> rfl

theorem pointed_touch_ne (way : Nat) (t : PointerTree (k + 1)) : (t.touch way).pointed ≠ way := by
  intro hEq
  cases t with
  | node pointer child =>
    have hRoot : (((node pointer child).touch way).pointed).testBit k = !way.testBit k := testBit_pointed_root _ _
    rw [hEq] at hRoot
    exact Bool.not_ne_self _ hRoot.symm

theorem touch_congr {way way' : Nat} (t : PointerTree k) (h : ∀ i < k, way.testBit i = way'.testBit i) :
    t.touch way = t.touch way' := by
  induction t with
  | leaf => rfl
  | @node k pointer child ih =>
    have hChild := fun side => ih side fun i hi => h i (Nat.lt_succ_of_lt hi)
    rw [touch, touch, h k (Nat.lt_succ_self k), hChild]

/-- The half pointed to advances, and the pointer turns to the other half. -/
theorem advance_node (pointer : Bool) (child : Bool → PointerTree k) :
    (node pointer child).advance = node (!pointer) (Function.update child pointer (child pointer).advance) := by
  rw [advance, touch, testBit_pointed_root]
  have hChild : (child pointer).touch (node pointer child).pointed = (child pointer).advance := by
    apply touch_congr
    intro i hi
    rw [testBit_pointed_node, if_pos hi]
  rw [hChild]

theorem advance_two_mul (n : Nat) (pointer : Bool) (child : Bool → PointerTree k) :
    advance^[2 * n] (node pointer child) = node pointer fun side => advance^[n] (child side) := by
  induction n generalizing child with
  | zero => rfl
  | succ n ih =>
    have hTwice : (advance (advance (node pointer child))) = node pointer fun side => (child side).advance := by
      rw [advance_node, advance_node, Bool.not_not]
      congr 1
      funext side
      cases pointer <;> cases side <;> rfl
    rw [Nat.mul_succ, Function.iterate_succ_apply, Function.iterate_succ_apply, hTwice, ih]
    rfl

theorem advance_two_pow (t : PointerTree k) : advance^[2 ^ k] t = t := by
  induction t with
  | leaf => rfl
  | @node k pointer child ih =>
    rw [Nat.pow_succ, Nat.mul_comm, advance_two_mul]
    congr 1
    exact funext ih

theorem exists_pointed_node (side pointer : Bool) (child : Bool → PointerTree k) (n : Nat) :
    ∃ m < 2 * n + 2, (advance^[m] (node pointer child)).pointed = side.toNat * 2 ^ k + (advance^[n] (child side)).pointed := by
  rcases Bool.eq_or_eq_not side pointer with rfl | rfl
  · exact ⟨2 * n, by omega, by rw [advance_two_mul, pointed]⟩
  · refine ⟨2 * n + 1, by omega, ?_⟩
    rw [Function.iterate_succ_apply', advance_two_mul, advance_node, pointed,
      Function.update_of_ne (Bool.not_ne_self pointer)]

theorem exists_pointed (t : PointerTree k) {way : Nat} (hWay : way < 2 ^ k) :
    ∃ n < 2 ^ k, (advance^[n] t).pointed = way := by
  induction t generalizing way with
  | leaf => exact ⟨0, Nat.one_pos, (Nat.lt_one_iff.mp hWay).symm⟩
  | @node k pointer child ih =>
    rw [Nat.pow_succ] at hWay ⊢
    obtain ⟨side, rest, hRest, rfl⟩ : ∃ (side : Bool) (rest : Nat), rest < 2 ^ k ∧ way = side.toNat * 2 ^ k + rest := by
      rcases Nat.lt_or_ge way (2 ^ k) with hLow | hHigh
      · exact ⟨false, way, hLow, by simp⟩
      · exact ⟨true, way - 2 ^ k, by omega, by simp only [Bool.toNat_true]; omega⟩
    obtain ⟨n, hn, hPointed⟩ := ih side hRest
    obtain ⟨m, hm, hReach⟩ := exists_pointed_node side pointer child n
    exact ⟨m, by omega, by rw [hReach, hPointed]⟩

/-- In one period every leaf is reached once. -/
theorem existsUnique_pointed (t : PointerTree k) (way : Fin (2 ^ k)) :
    ∃! n : Fin (2 ^ k), (advance^[n.val] t).pointed = way.val := by
  let reached (n : Fin (2 ^ k)) : Fin (2 ^ k) := ⟨(advance^[n.val] t).pointed, pointed_lt _⟩
  have hSurjective : Function.Surjective reached := by
    intro w
    obtain ⟨n, hn, hw⟩ := exists_pointed t w.isLt
    exact ⟨⟨n, hn⟩, Fin.ext hw⟩
  have hBijective : Function.Bijective reached := Finite.surjective_iff_bijective.mp hSurjective
  simpa only [reached, Fin.ext_iff] using hBijective.existsUnique way

end PointerTree

end KnockoutKraken.Library
