import Mathlib.Data.BitVec
import Mathlib.Data.Finset.Card

/-!
# Words as sets of indices

A word whose bits stand for threads. `bitOf` is the word of one valid tag,
`priorityEncoder` the index of the lowest set bit, `upTo` the set bits up
to an index.
-/

namespace KnockoutKraken.Library

variable {n w : Nat}

def bitOf (n : Nat) (tag : Option (BitVec w)) : BitVec n :=
  match tag with
  | some t => 1#n <<< t.toNat
  | none => 0#n

theorem getLsbD_bitOf (tag : Option (BitVec w)) (t : BitVec w) :
    (bitOf n tag).getLsbD t.toNat = (decide (t.toNat < n) && decide (tag = some t)) := by
  cases tag with
  | none => simp [bitOf]
  | some t' =>
    rw [bitOf, BitVec.getLsbD_shiftLeft, BitVec.getLsbD_one]
    by_cases hEq : t' = t
    · subst hEq
      by_cases hLt : t'.toNat < n
      · simp [hLt, Nat.zero_lt_of_lt hLt]
      · simp [hLt]
    · have hNe : t'.toNat ≠ t.toNat := fun h => hEq (BitVec.eq_of_toNat_eq h)
      by_cases hBelow : t.toNat < t'.toNat
      · simp [hEq, hBelow]
      · have hSub : ¬ t.toNat - t'.toNat = 0 := by omega
        simp [hEq, hSub]

/-- The index of the lowest set bit, the last index when no bit is set. -/
def priorityEncoder (v : BitVec (2 ^ w)) : BitVec w :=
  BitVec.ofNat w (((List.range (2 ^ w)).find? v.getLsbD).getD (2 ^ w - 1))

theorem priorityEncoder_spec {v : BitVec (2 ^ w)} {i : Nat} (hBit : v.getLsbD i = true) :
    v.getLsbD (priorityEncoder v).toNat = true ∧ (priorityEncoder v).toNat ≤ i := by
  have hLt : i < 2 ^ w := BitVec.lt_of_getLsbD hBit
  cases hFind : (List.range (2 ^ w)).find? v.getLsbD with
  | none =>
    rw [List.find?_eq_none] at hFind
    exact absurd hBit (hFind i (List.mem_range.mpr hLt))
  | some j =>
    obtain ⟨hj, hRange, hBefore⟩ := List.find?_range_eq_some.mp hFind
    have hVal : (priorityEncoder v).toNat = j := by
      rw [priorityEncoder, hFind, Option.getD_some, BitVec.toNat_ofNat]
      exact Nat.mod_eq_of_lt (List.mem_range.mp hRange)
    rw [hVal]
    refine ⟨hj, Nat.le_of_not_lt fun hBelow => ?_⟩
    have hUnset := hBefore i hBelow
    rw [hBit] at hUnset
    cases hUnset

theorem exists_getLsbD_of_ne_zero {v : BitVec n} (h : v ≠ 0#n) : ∃ i, v.getLsbD i = true := by
  by_contra hNone
  refine h (BitVec.eq_of_getLsbD_eq fun i _ => ?_)
  rw [BitVec.getLsbD_zero]
  exact Bool.eq_false_iff.mpr fun hBit => hNone ⟨i, hBit⟩

theorem ne_zero_of_getLsbD {v : BitVec n} {i : Nat} (hBit : v.getLsbD i = true) : v ≠ 0#n := by
  rintro rfl
  rw [BitVec.getLsbD_zero] at hBit
  cases hBit

theorem getLsbD_priorityEncoder {v : BitVec (2 ^ w)} (h : v ≠ 0#(2 ^ w)) : v.getLsbD (priorityEncoder v).toNat = true := by
  obtain ⟨i, hBit⟩ := exists_getLsbD_of_ne_zero h
  exact (priorityEncoder_spec hBit).1

section UpTo

def upTo (v : BitVec n) (t : Nat) : Finset Nat := (Finset.range (t + 1)).filter fun j => v.getLsbD j = true

theorem mem_upTo {v : BitVec n} {t j : Nat} : j ∈ upTo v t ↔ j ≤ t ∧ v.getLsbD j = true := by
  simp only [upTo, Finset.mem_filter, Finset.mem_range, Nat.lt_succ_iff]

theorem card_upTo_le (v : BitVec n) (t : Nat) : (upTo v t).card ≤ t + 1 :=
  (Finset.card_filter_le _ _).trans_eq (Finset.card_range _)

theorem card_upTo_or (v v' : BitVec n) (t : Nat) : (upTo (v ||| v') t).card ≤ (upTo v t).card + (upTo v' t).card := by
  refine (Finset.card_le_card fun j hj => ?_).trans (Finset.card_union_le _ _)
  rw [mem_upTo, BitVec.getLsbD_or, Bool.or_eq_true] at hj
  rw [Finset.mem_union, mem_upTo, mem_upTo]
  exact hj.2.imp (fun h => ⟨hj.1, h⟩) fun h => ⟨hj.1, h⟩

/-- A bit that both words have counts once in their union. -/
theorem card_upTo_or_of_both {v v' : BitVec n} {t j : Nat} (hj : j ≤ t) (hBit : v.getLsbD j = true)
    (hBit' : v'.getLsbD j = true) : (upTo (v ||| v') t).card + 1 ≤ (upTo v t).card + (upTo v' t).card := by
  have hMem : j ∈ upTo v t := mem_upTo.mpr ⟨hj, hBit⟩
  have hSub : upTo (v ||| v') t ⊆ (upTo v t).erase j ∪ upTo v' t := by
    intro k hk
    rw [mem_upTo, BitVec.getLsbD_or, Bool.or_eq_true] at hk
    rw [Finset.mem_union, Finset.mem_erase, mem_upTo, mem_upTo]
    by_cases hkj : k = j
    · subst hkj
      exact .inr ⟨hj, hBit'⟩
    · exact hk.2.imp (fun h => ⟨hkj, hk.1, h⟩) fun h => ⟨hk.1, h⟩
  have hCard := (Finset.card_le_card hSub).trans (Finset.card_union_le _ _)
  rw [Finset.card_erase_of_mem hMem] at hCard
  have hPos := Finset.card_pos.mpr ⟨j, hMem⟩
  omega

theorem card_upTo_clear {v v' : BitVec n} {t j : Nat} (hj : j ≤ t) (hBit : v.getLsbD j = true)
    (hCleared : v'.getLsbD j = false) (hSub : ∀ k, v'.getLsbD k = true → v.getLsbD k = true) :
    (upTo v' t).card + 1 ≤ (upTo v t).card := by
  refine Finset.card_lt_card (Finset.ssubset_iff_of_subset (fun k hk => ?_) |>.mpr ⟨j, ?_, ?_⟩)
  · exact mem_upTo.mpr ⟨(mem_upTo.mp hk).1, hSub k (mem_upTo.mp hk).2⟩
  · exact mem_upTo.mpr ⟨hj, hBit⟩
  · intro hMem
    rw [mem_upTo, hCleared] at hMem
    cases hMem.2

end UpTo

end KnockoutKraken.Library
