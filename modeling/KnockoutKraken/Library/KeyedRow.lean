import Mathlib.Logic.Function.Basic

/-!
# Rows with keys

A row is a finite memory whose entries may carry a key. The invariant of
an associative memory is that no key is carried twice; a write keeps it
when the key it brings in was at most at the place it overwrites.
-/

namespace KnockoutKraken.Library

universe u v w

variable {ι : Type u} {ε : Type v} {τ : Type w} (key : ε → Option τ)

def Holds (row : ι → ε) (t : τ) (i : ι) : Prop := key (row i) = some t

instance [DecidableEq τ] (row : ι → ε) (t : τ) (i : ι) : Decidable (Holds key row t i) :=
  inferInstanceAs (Decidable (key (row i) = some t))

def UniqueKeys (row : ι → ε) : Prop := ∀ t i j, Holds key row t i → Holds key row t j → i = j

variable {key} [DecidableEq ι] {row : ι → ε} {t : τ} {i j : ι} {entry : ε}

theorem holds_update_self : Holds key (Function.update row i entry) t i ↔ key entry = some t := by
  rw [Holds, Function.update_self]

theorem holds_update_of_ne (h : j ≠ i) :
    Holds key (Function.update row i entry) t j ↔ Holds key row t j := by
  rw [Holds, Function.update_of_ne h, Holds]

theorem UniqueKeys.update (h : UniqueKeys key row)
    (fresh : ∀ t j, key entry = some t → Holds key row t j → j = i) :
    UniqueKeys key (Function.update row i entry) := by
  intro t j k hj hk
  by_cases hji : j = i
  · subst hji
    by_cases hki : k = j
    · exact hki.symm
    · exact (fresh t k (holds_update_self.mp hj) ((holds_update_of_ne hki).mp hk)).symm
  · have hOld := (holds_update_of_ne hji).mp hj
    by_cases hki : k = i
    · subst hki
      exact fresh t j (holds_update_self.mp hk) hOld
    · exact h t j k hOld ((holds_update_of_ne hki).mp hk)

/-- An entry without a key can be written anywhere. -/
theorem UniqueKeys.erase (h : UniqueKeys key row) (hEntry : key entry = none) :
    UniqueKeys key (Function.update row i entry) :=
  h.update fun t j hKey _ => by rw [hEntry] at hKey; cases hKey

theorem not_holds_erase (hEntry : key entry = none) (only : ∀ j, Holds key row t j → j = i) (j : ι) :
    ¬ Holds key (Function.update row i entry) t j := by
  intro hj
  by_cases hji : j = i
  · subst hji
    rw [holds_update_self, hEntry] at hj
    cases hj
  · exact hji (only j ((holds_update_of_ne hji).mp hj))

end KnockoutKraken.Library
