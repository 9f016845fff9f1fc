import KnockoutKraken.Library.Arbiter
import Mathlib.Data.List.Nodup
import Mathlib.Data.Fintype.EquivFin
import Mathlib.Data.Fintype.Lattice
import Mathlib.Order.Lattice.Nat

/-!
# Recency

A history of touches orders what it touches by age, the number of touches
since the last one; what was never touched is the oldest. Among finitely
many ways the lowest of the oldest is the least recently used.
-/

namespace KnockoutKraken.Library

universe u

section Age

variable {α : Type u} [DecidableEq α]

def age (touches : List α) (a : α) : Nat := touches.reverse.idxOf a

variable {touches : List α} {a b : α}

@[simp] theorem age_nil (a : α) : age [] a = 0 := rfl

theorem age_concat (touches : List α) (t a : α) :
    age (touches ++ [t]) a = if a = t then 0 else age touches a + 1 := by
  rw [age, List.reverse_append, List.reverse_singleton, List.singleton_append]
  split
  · next hEq => exact List.idxOf_cons_eq _ hEq.symm
  · next hNe => exact List.idxOf_cons_ne _ (Ne.symm hNe)

theorem age_le : age touches a ≤ touches.length := by
  rw [age, ← List.length_reverse]
  exact List.idxOf_le_length

theorem age_eq_length_iff : age touches a = touches.length ↔ a ∉ touches := by
  rw [age, ← List.length_reverse, List.idxOf_eq_length_iff, List.mem_reverse]

theorem age_inj (ha : a ∈ touches) : age touches a = age touches b ↔ a = b :=
  List.idxOf_inj (List.mem_reverse.mpr ha)

end Age

variable {n : Nat}

/-- The way is the lowest one never touched or, when there is none, the one whose last touch is the oldest. -/
structure LeastRecent (touches : List Nat) (way : Fin n) : Prop where
  untouched : (∃ v : Fin n, v.val ∉ touches) → way.val ∉ touches ∧ ∀ v < way, v.val ∈ touches
  oldest : (∀ v : Fin n, v.val ∈ touches) → ∀ v ≠ way, age touches v.val < age touches way.val

def oldest (touches : List Nat) (i : Fin n) : Bool := decide (∀ j : Fin n, age touches j.val ≤ age touches i.val)

theorem oldest_iff {touches : List Nat} {i : Fin n} (hUntouched : ∃ v : Fin n, v.val ∉ touches) :
    oldest touches i = true ↔ i.val ∉ touches := by
  obtain ⟨v, hv⟩ := hUntouched
  rw [oldest, decide_eq_true_iff]
  constructor
  · intro hMax
    exact age_eq_length_iff.mp (le_antisymm age_le ((age_eq_length_iff.mpr hv).ge.trans (hMax v)))
  · intro hi j
    exact age_le.trans (age_eq_length_iff.mpr hi).ge

/-- The lowest of the oldest ways exists and is the least recent one. -/
theorem leastRecent_of_oldest (touches : List Nat) :
    ∃ way : Fin (n + 1), lowest (oldest touches) = some way ∧ LeastRecent touches way := by
  cases hLowest : lowest (oldest (n := n + 1) touches) with
  | none =>
    obtain ⟨v, hv⟩ := Finite.exists_max fun v : Fin (n + 1) => age touches v.val
    have hNone := lowest_eq_none_iff.mp hLowest v
    rw [oldest, decide_eq_true hv] at hNone
    cases hNone
  | some way =>
    obtain ⟨hOldest, hBelow⟩ := lowest_eq_some_iff.mp hLowest
    refine ⟨way, rfl, fun hUntouched => ⟨(oldest_iff hUntouched).mp hOldest, fun v hv => ?_⟩, fun hAll v hNe => ?_⟩
    · by_contra hNot
      have hOld := hBelow v hv
      rw [(oldest_iff hUntouched).mpr hNot] at hOld
      cases hOld
    · refine (of_decide_eq_true hOldest v).lt_of_ne fun hEq => hNe (Fin.ext ?_)
      exact (age_inj (hAll v)).mp hEq

end KnockoutKraken.Library
