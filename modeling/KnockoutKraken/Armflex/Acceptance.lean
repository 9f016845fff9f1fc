import KnockoutKraken.Armflex.ExecuteStage
import Mathlib.Data.List.Pairwise

/-!
# The words that the decoder accepts

A word is to be accepted when the architecture allocates it to an
instruction of the decode table, and handed over to the host when it does
not. The patterns of the table are the diagrams of its classes; what a
class reserves among its words they cannot say.
-/

namespace KnockoutKraken.Arm

/-- The instruction of the table that the architecture gives to a word. -/
def allocated (w : BitVec 32) : Option ControlSignals :=
  (classes.find? fun c => decide ((diagram c).Matches w)).bind fun c =>
    if reserved w c then none else (signals w c).filter fun _ => listed w c

section Classes

variable {c d : IType} {w : BitVec 32}

theorem class_unique (hc : (diagram c).Matches w) (hd : (diagram d).Matches w) : c = d := by
  by_contra hNe
  have hSymm : Std.Symm fun c d => (diagram c).Apart (diagram d) := ⟨fun _ _ h => h.symm⟩
  have hApart := apart_classes.forall (mem_classes_of_matches hc) (mem_classes_of_matches hd) hNe
  exact hc.not_of_apart hApart hd

theorem find_class (h : (diagram c).Matches w) : (classes.find? fun c => decide ((diagram c).Matches w)) = some c := by
  cases hFind : classes.find? fun c => decide ((diagram c).Matches w) with
  | none => exact absurd (decide_eq_true h) (List.find?_eq_none.mp hFind c (mem_classes_of_matches h))
  | some d =>
    have hFound := List.find?_some (p := fun c => decide ((diagram c).Matches w)) hFind
    exact congrArg some (class_unique (of_decide_eq_true hFound) h)

theorem allocated_of_matches (h : (diagram c).Matches w) :
    allocated w = if reserved w c then none else (signals w c).filter fun _ => listed w c := by
  rw [allocated, find_class h]
  rfl

theorem allocated_of_not_matches (h : ∀ c ∈ classes, ¬ (diagram c).Matches w) : allocated w = none := by
  have hFind : (classes.find? fun c => decide ((diagram c).Matches w)) = none :=
    List.find?_eq_none.mpr fun c hc hMatches => h c hc (of_decide_eq_true hMatches)
  rw [allocated, hFind]
  rfl

theorem listed_of_reserved (h : reserved w c = true) : listed w c = true := by
  cases c <;> first | rfl | cases h

theorem itype_of_signals {sig : ControlSignals} (h : signals w c = some sig) : sig.itype = c := by
  cases c <;> simp only [signals, pairSignals, accessSignals] at h <;> (repeat' split at h) <;> cases h <;> rfl

end Classes

end KnockoutKraken.Arm

namespace KnockoutKraken.Armflex

open Arm

structure Accepted (w : BitVec 32) : Prop where
  valid : (DInst.decode w).inst32.valid = (allocated w).isSome
  decoded : ∀ sig ∈ allocated w, DInst.decode w = DInst.ofSignals w sig
  transplanted : allocated w = none → (DInst.decode w).itype = .X ∧ ∀ (thidW : Nat) (s : ThreadState),
    (s.issue w thidW).minst = none ∧ (s.issue w thidW).commitNext.transplant = true

section Acceptance

variable {w : BitVec 32} {c : IType}

theorem transplanted_of_default (h : controlSignals w = decode_default) (thidW : Nat) (s : ThreadState) :
    (s.issue w thidW).minst = none ∧ (s.issue w thidW).commitNext.transplant = true := by
  have hDecode : DInst.decode w = DInst.ofSignals w decode_default := by rw [DInst.decode, h]
  rw [ThreadState.issue_minst, ThreadState.issue_commitNext, hDecode]
  exact ⟨rfl, rfl⟩

theorem itype_ne_X (h : (diagram c).Matches w) {sig : ControlSignals} (hSignals : signals w c = some sig) : sig.itype ≠ .X := by
  rw [itype_of_signals hSignals]
  rintro rfl
  cases hSignals

theorem valid_of_signals (h : (diagram c).Matches w) {sig : ControlSignals} (hSignals : signals w c = some sig)
    (hListed : listed w c = true) : (DInst.decode w).inst32.valid = true := by
  rw [decode_eq h hSignals hListed]
  exact bne_iff_ne.mpr (itype_ne_X h hSignals)

theorem class_or_default (w : BitVec 32) : controlSignals w = decode_default ∨
    ∃ c sig, (diagram c).Matches w ∧ signals w c = some sig ∧ controlSignals w = sig := by
  cases hFind : classes.find? fun c => decide ((diagram c).Matches w) with
  | none =>
    have hNone : ∀ c ∈ classes, ¬ (diagram c).Matches w := fun c hc hMatches =>
      List.find?_eq_none.mp hFind c hc (decide_eq_true hMatches)
    exact .inl (controlSignals_of_not_matches hNone)
  | some c =>
    have hMatches : (diagram c).Matches w :=
      of_decide_eq_true (List.find?_some (p := fun c => decide ((diagram c).Matches w)) hFind)
    have hRow := controlSignals_of_matches hMatches
    rw [rowOf] at hRow
    cases hSignals : (signals w c).filter fun _ => listed w c with
    | none =>
      rw [hSignals] at hRow
      exact .inl hRow
    | some sig =>
      rw [hSignals] at hRow
      exact .inr ⟨c, sig, hMatches, (Option.filter_eq_some_iff.mp hSignals).1, hRow⟩

theorem class_of_decode (h : (DInst.decode w).itype ≠ .X) : (diagram (DInst.decode w).itype).Matches w ∧
    ∃ sig, signals w (DInst.decode w).itype = some sig ∧ DInst.decode w = DInst.ofSignals w sig := by
  rcases class_or_default w with hDefault | ⟨c, sig, hMatches, hSignals, hRow⟩
  · exact absurd (congrArg ControlSignals.itype hDefault) h
  · have hDecode : DInst.decode w = DInst.ofSignals w sig := congrArg (DInst.ofSignals w) hRow
    have hType : (DInst.decode w).itype = c := (congrArg DInst.itype hDecode).trans (itype_of_signals hSignals)
    rw [hType]
    exact ⟨hMatches, sig, hSignals, hDecode⟩

theorem accepted_of_default (h : controlSignals w = decode_default) (hNone : allocated w = none) : Accepted w where
  valid := by
    rw [hNone, DInst.decode, h]
    rfl
  decoded := fun sig hSig => by
    rw [hNone] at hSig
    cases hSig
  transplanted := fun _ => ⟨by rw [DInst.decode, h]; rfl, transplanted_of_default h⟩

/-- A reserved word that has an operation is accepted all the same. -/
theorem not_accepted_of_reserved (h : (diagram c).Matches w) (hSome : (signals w c).isSome = true)
    (hReserved : reserved w c = true) : ¬ Accepted w := by
  intro hAccepted
  obtain ⟨sig, hSignals⟩ := Option.isSome_iff_exists.mp hSome
  have hValid := hAccepted.valid
  rw [valid_of_signals h hSignals (listed_of_reserved hReserved), allocated_of_matches h, if_pos hReserved] at hValid
  cases hValid

theorem accepted_of_matches (h : (diagram c).Matches w) (hFree : (signals w c).isSome = true → reserved w c = false) :
    Accepted w := by
  cases hSignals : signals w c with
  | none =>
    refine accepted_of_default ?_ ?_
    · rw [controlSignals_of_matches h, rowOf, hSignals]
      rfl
    · rw [allocated_of_matches h, hSignals]
      exact ite_self _
  | some sig =>
    have hFree : reserved w c = false := hFree (by rw [hSignals]; rfl)
    cases hListed : listed w c with
    | false =>
      refine accepted_of_default ?_ ?_
      · rw [controlSignals_of_matches h, rowOf, hSignals, Option.filter_some, hListed]
        rfl
      · rw [allocated_of_matches h, hSignals, hFree, Option.filter_some, hListed]
        rfl
    | true =>
      have hAllocated : allocated w = some sig := by
        rw [allocated_of_matches h, hSignals, hFree, Option.filter_some, hListed]
        rfl
      refine ⟨?_, fun sig' hSig => ?_, fun hNot => ?_⟩
      · rw [valid_of_signals h hSignals hListed, hAllocated]
        rfl
      · rw [hAllocated, Option.mem_some_iff] at hSig
        exact hSig ▸ decode_eq h hSignals hListed
      · rw [hAllocated] at hNot
        cases hNot

/-- The decoder does what the architecture asks for on a word exactly when the word is not reserved in a class
that has an operation for it. -/
theorem accepted_iff (w : BitVec 32) :
    Accepted w ↔ ∀ c, (diagram c).Matches w → (signals w c).isSome = true → reserved w c = false := by
  constructor
  · intro hAccepted c hMatches hSome
    cases hReserved : reserved w c with
    | false => rfl
    | true => exact absurd hAccepted (not_accepted_of_reserved hMatches hSome hReserved)
  · intro hFree
    cases hFind : classes.find? fun c => decide ((diagram c).Matches w) with
    | none =>
      have hNone : ∀ c ∈ classes, ¬ (diagram c).Matches w := fun c hc hMatches =>
        List.find?_eq_none.mp hFind c hc (decide_eq_true hMatches)
      exact accepted_of_default (controlSignals_of_not_matches hNone) (allocated_of_not_matches hNone)
    | some c =>
      have hMatches : (diagram c).Matches w :=
        of_decide_eq_true (List.find?_some (p := fun c => decide ((diagram c).Matches w)) hFind)
      exact accepted_of_matches hMatches (hFree c hMatches)

/-- `ADD X0, X1, X2` with the shift type that is reserved is executed. -/
theorem reserved_add_accepted : ¬ ∀ w, Accepted w := fun hAll =>
  not_accepted_of_reserved (c := .ASSR) (w := 0x8BC20020#32) (by decide) rfl (by decide) (hAll _)

end Acceptance

end KnockoutKraken.Armflex
