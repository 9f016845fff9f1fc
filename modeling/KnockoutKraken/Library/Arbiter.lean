import KnockoutKraken.Library.Indices
import Mathlib.Data.Fintype.Pi
import Mathlib.Data.List.FinRange

/-!
# Arbiters

The library arbiters over `n + 1` decoupled inputs. The fixed-priority
arbiter serves the lowest valid input. The round-robin arbiter serves the
lowest valid input above the last one granted, and the lowest valid input
when there is none above; it may offer `ready` to an input that is not
valid. Both name the last input when nothing is valid.
-/

namespace KnockoutKraken.Library

variable {n : Nat}

def lowest (valid : Fin (n + 1) → Bool) : Option (Fin (n + 1)) :=
  (List.finRange (n + 1)).find? valid

theorem lowest_eq_some_iff {valid : Fin (n + 1) → Bool} {i : Fin (n + 1)} :
    lowest valid = some i ↔ valid i = true ∧ ∀ j < i, valid j = false := by
  rw [lowest, List.find?_eq_some_iff_getElem]
  simp only [List.getElem_finRange, List.length_finRange, Bool.not_eq_true']
  refine and_congr_right fun _ => ⟨?_, fun h => ⟨i.val, i.isLt, by simp, fun j hj => h _ (by simpa [Fin.lt_def] using hj)⟩⟩
  rintro ⟨k, hk, hEq, hBefore⟩ j hj
  have hVal : k = i.val := by simpa using congrArg Fin.val hEq
  subst hVal
  simpa using hBefore j.val hj

theorem lowest_eq_none_iff {valid : Fin (n + 1) → Bool} : lowest valid = none ↔ ∀ i, valid i = false := by
  simp [lowest, List.find?_eq_none]

namespace Arbiter

def chosen (valid : Fin (n + 1) → Bool) : Fin (n + 1) := (lowest valid).getD (Fin.last n)

def grant (valid : Fin (n + 1) → Bool) (i : Fin (n + 1)) : Bool := decide (∀ j < i, valid j = false)

def outValid (valid : Fin (n + 1) → Bool) : Bool := decide (∃ i, valid i = true)

end Arbiter

namespace RRArbiter

def validMask (valid : Fin (n + 1) → Bool) (lastGrant i : Fin (n + 1)) : Bool :=
  valid i && decide (lastGrant < i)

def chosen (valid : Fin (n + 1) → Bool) (lastGrant : Fin (n + 1)) : Fin (n + 1) :=
  ((lowest (validMask valid lastGrant)).or (lowest valid)).getD (Fin.last n)

def grant (valid : Fin (n + 1) → Bool) (lastGrant i : Fin (n + 1)) : Bool :=
  decide (∀ j < i, validMask valid lastGrant j = false) && decide (lastGrant < i) ||
    decide (∀ j, validMask valid lastGrant j = false) && decide (∀ j < i, valid j = false)

def outValid (valid : Fin (n + 1) → Bool) (lastGrant : Fin (n + 1)) : Bool := valid (chosen valid lastGrant)

def next (valid : Fin (n + 1) → Bool) (lastGrant : Fin (n + 1)) (outReady : Bool) : Fin (n + 1) :=
  if outValid valid lastGrant && outReady then chosen valid lastGrant else lastGrant

section Grant

variable {valid : Fin (n + 1) → Bool} {i : Fin (n + 1)}

/-- An input that is valid is the one chosen exactly when it is granted. -/
theorem chosen_eq_iff_grant (lastGrant : Fin (n + 1)) (hValid : valid i = true) : chosen valid lastGrant = i ↔ grant valid lastGrant i = true := by
  have hSome : ∃ k, lowest valid = some k := by
    rw [← Option.isSome_iff_exists, Option.isSome_iff_ne_none, ne_eq, lowest_eq_none_iff]
    intro hNone
    rw [hNone i] at hValid
    cases hValid
  simp only [grant, Bool.or_eq_true, Bool.and_eq_true, decide_eq_true_eq]
  cases hMask : lowest (validMask valid lastGrant) with
  | some k =>
    obtain ⟨hk, hBefore⟩ := lowest_eq_some_iff.mp hMask
    rw [chosen, hMask, Option.some_or, Option.getD_some]
    constructor
    · rintro rfl
      simp only [validMask, Bool.and_eq_true, decide_eq_true_eq] at hk
      exact .inl ⟨hBefore, hk.2⟩
    · rintro (⟨hFirst, hAbove⟩ | ⟨hNone, _⟩)
      · have hi : validMask valid lastGrant i = true := by simp [validMask, hValid, hAbove]
        rcases lt_trichotomy k i with hLt | hEq | hGt
        · rw [hFirst k hLt] at hk
          cases hk
        · exact hEq
        · rw [hBefore i hGt] at hi
          cases hi
      · rw [hNone k] at hk
        cases hk
  | none =>
    obtain ⟨k, hLowest⟩ := hSome
    obtain ⟨hk, hBefore⟩ := lowest_eq_some_iff.mp hLowest
    have hNone := lowest_eq_none_iff.mp hMask
    rw [chosen, hMask, Option.none_or, hLowest, Option.getD_some]
    constructor
    · rintro rfl
      exact .inr ⟨hNone, hBefore⟩
    · rintro (⟨_, hAbove⟩ | ⟨_, hFirst⟩)
      · have hi := hNone i
        simp [validMask, hValid, hAbove] at hi
      · rcases lt_trichotomy k i with hLt | hEq | hGt
        · rw [hFirst k hLt] at hk
          cases hk
        · exact hEq
        · rw [hBefore i hGt] at hValid
          cases hValid

end Grant

/-- Of two inputs the lower one is served when the higher one was served last or is not valid. -/
theorem chosen_two (valid : Fin 2 → Bool) (lastGrant : Fin 2) :
    chosen valid lastGrant = if valid 0 && (decide (lastGrant = 1) || !valid 1) then 0 else 1 := by
  revert valid lastGrant
  decide

end RRArbiter

end KnockoutKraken.Library
