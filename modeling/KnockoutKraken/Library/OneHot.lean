import KnockoutKraken.Library.Indices
import Mathlib.Data.Fintype.Basic
import Mathlib.Data.Finset.Card
import Mathlib.Data.BitVec

/-!
# One-hot vectors

The library circuits that count, encode and prioritise the bits of a
vector. `ohToUInt` is the disjunction of the indices of the set bits, as
the encoder tree computes it: the set index of a one-hot vector, zero on
the empty vector, and an unrelated index otherwise.
-/

namespace KnockoutKraken.Library

variable {n : Nat}

def popCount (v : Fin n → Bool) : Nat := (Finset.univ.filter fun i => v i = true).card

def AtMostOne (v : Fin n → Bool) : Prop := ∀ i j, v i = true → v j = true → i = j

theorem popCount_le_one_iff (v : Fin n → Bool) : popCount v ≤ 1 ↔ AtMostOne v := by
  rw [popCount, Finset.card_le_one]
  simp only [Finset.mem_filter, Finset.mem_univ, true_and]
  exact ⟨fun h i j hi hj => h i hi j hj, fun h i hi j hj => h i j hi hj⟩

theorem popCount_eq_one_iff (v : Fin n → Bool) :
    popCount v = 1 ↔ ∃ i, v i = true ∧ ∀ j, v j = true → j = i := by
  rw [popCount, Finset.card_eq_one]
  refine exists_congr fun i => ?_
  rw [Finset.ext_iff]
  simp only [Finset.mem_filter, Finset.mem_univ, true_and, Finset.mem_singleton]
  constructor
  · intro h
    exact ⟨(h i).mpr rfl, fun j hj => (h j).mp hj⟩
  · rintro ⟨hi, hj⟩ j
    exact ⟨hj j, fun h => h ▸ hi⟩

theorem AtMostOne.popCount_eq_one_iff {v : Fin n → Bool} (h : AtMostOne v) :
    popCount v = 1 ↔ ∃ i, v i = true := by
  rw [Library.popCount_eq_one_iff]
  exact ⟨fun ⟨i, hi, _⟩ => ⟨i, hi⟩, fun ⟨i, hi⟩ => ⟨i, hi, fun j hj => h j i hj hi⟩⟩

section Encoder

variable {k : Nat}

def ohToUInt (v : Fin (2 ^ k) → Bool) : Fin (2 ^ k) :=
  (List.finRange (2 ^ k)).foldl (fun index i => if v i then index ||| i else index) 0

theorem foldl_or_of_none (v : Fin (2 ^ k) → Bool) (is : List (Fin (2 ^ k))) (start : Fin (2 ^ k))
    (h : ∀ i ∈ is, v i = false) :
    is.foldl (fun index i => if v i then index ||| i else index) start = start := by
  induction is generalizing start with
  | nil => rfl
  | cons i is ih =>
    rw [List.foldl_cons, h i List.mem_cons_self]
    exact ih start fun j hj => h j (List.mem_cons_of_mem i hj)

theorem ohToUInt_of_atMostOne {v : Fin (2 ^ k) → Bool} (h : AtMostOne v) {i : Fin (2 ^ k)}
    (hi : v i = true) : ohToUInt v = i := by
  obtain ⟨before, after, hSplit⟩ := List.append_of_mem (List.mem_finRange i)
  have hNodup : (before ++ i :: after).Nodup := hSplit ▸ List.nodup_finRange (2 ^ k)
  have others : ∀ j, j ≠ i → v j = false := by
    intro j hj
    cases hv : v j with
    | false => rfl
    | true => exact absurd (h j i hv hi) hj
  have hBefore : ∀ j ∈ before, v j = false := by
    intro j hj
    exact others j fun hEq => (List.nodup_append.mp hNodup).2.2 j hj i List.mem_cons_self hEq
  have hAfter : ∀ j ∈ after, v j = false := by
    intro j hj
    exact others j fun hEq =>
      (List.nodup_cons.mp (List.nodup_append.mp hNodup).2.1).1 (hEq ▸ hj)
  rw [ohToUInt, hSplit, List.foldl_append, foldl_or_of_none v before 0 hBefore, List.foldl_cons,
    if_pos hi, foldl_or_of_none v after _ hAfter]
  apply Fin.ext
  rw [Fin.or_val_of_two_pow]
  exact Nat.zero_or i.val

end Encoder

def ohToIndex (v : Fin (n + 1) → Bool) : Fin (n + 1) :=
  (List.finRange (n + 1)).foldl (fun index i => if v i then index ||| i else index) 0

theorem ohToIndex_of_single {v : Fin (n + 1) → Bool} {i : Fin (n + 1)} (h : ∀ j, v j = decide (j = i)) : ohToIndex v = i := by
  have hNone : ∀ (is : List (Fin (n + 1))) (start : Fin (n + 1)), i ∉ is →
      is.foldl (fun index j => if v j then index ||| j else index) start = start := by
    intro is
    induction is with
    | nil => exact fun start _ => rfl
    | cons j is ih =>
      intro start hNot
      obtain ⟨hNe, hRest⟩ := List.ne_and_not_mem_of_not_mem_cons hNot
      rw [List.foldl_cons, h j, decide_eq_false hNe.symm]
      exact ih start hRest
  obtain ⟨before, after, hSplit⟩ := List.append_of_mem (List.mem_finRange i)
  have hNodup : (before ++ i :: after).Nodup := hSplit ▸ List.nodup_finRange (n + 1)
  have hNot := (List.nodup_cons.mp (List.nodup_middle.mp hNodup)).1
  rw [List.mem_append, not_or] at hNot
  rw [ohToIndex, hSplit, List.foldl_append, hNone before 0 hNot.1, List.foldl_cons, h i, decide_eq_true rfl, if_pos rfl,
    hNone after _ hNot.2]
  apply Fin.ext
  rw [Fin.or_val]
  exact (congrArg (· % (n + 1)) (Nat.zero_or i.val)).trans (Nat.mod_eq_of_lt i.isLt)

end KnockoutKraken.Library
