import Mathlib.Data.List.TakeWhile
import Mathlib.Tactic.Tauto

/-!
# Overtaking

Items are numbered as they are emitted, wait, and pass one at a time,
not always the oldest first. A relation says which earlier items a later
one must not overtake. The items pass in order exactly when each of them,
at the moment it passes, leaves nothing behind that it must not overtake.
-/

namespace KnockoutKraken.Library

universe u

/-- Emitted items with their numbers: the ones still waiting, in the order of emission,
and the ones that passed, in the order they did. -/
structure Log (α : Type u) where
  serial : Nat
  waiting : List (Nat × α)
  passed : List (Nat × α)

namespace Log

variable {α : Type u} (blocks : α → α → Prop) (l : Log α)

def empty : Log α := ⟨0, [], []⟩

def emit (item : Option α) : Log α :=
  match item with
  | some a => ⟨l.serial + 1, l.waiting ++ [(l.serial, a)], l.passed⟩
  | none => l

/-- The oldest waiting item of the picked kind passes. -/
def pass (pick : α → Bool) : Log α where
  serial := l.serial
  waiting := l.waiting.eraseP fun e => pick e.2
  passed := l.passed ++ (l.waiting.find? fun e => pick e.2).toList

/-- What is older than the item that passes and stays behind. -/
def older (pick : α → Bool) : List (Nat × α) := l.waiting.takeWhile fun e => !pick e.2

structure Numbered : Prop where
  sorted : l.waiting.Pairwise fun e e' => e.1 < e'.1
  waiting_lt : ∀ e ∈ l.waiting, e.1 < l.serial
  passed_lt : ∀ e ∈ l.passed, e.1 < l.serial
  apart : ∀ e ∈ l.waiting, e ∉ l.passed

/-- Every item of the list passed after the earlier ones it must not overtake. -/
def InOrder (emitted passed : List (Nat × α)) : Prop :=
  ∀ before e after, passed = before ++ e :: after →
    ∀ e' ∈ emitted, e'.1 < e.1 → blocks e'.2 e.2 → e' ∈ before

def emitted : List (Nat × α) := l.waiting ++ l.passed

variable {blocks} {l}

theorem Numbered.empty : (empty : Log α).Numbered :=
  ⟨List.Pairwise.nil, (fun _ h => by cases h), (fun _ h => by cases h), (fun _ h => by cases h)⟩

theorem Numbered.emit (h : l.Numbered) (item : Option α) : (l.emit item).Numbered := by
  cases item with
  | none => exact h
  | some a =>
    refine ⟨?_, ?_, (fun e he => Nat.lt_succ_of_lt (h.passed_lt e he)), ?_⟩
    · rw [Log.emit, List.pairwise_append]
      refine ⟨h.sorted, List.pairwise_singleton _ _, ?_⟩
      intro e he e' he'
      rw [List.mem_singleton.mp he']
      exact h.waiting_lt e he
    · intro e he
      rcases List.mem_append.mp he with he | he
      · exact Nat.lt_succ_of_lt (h.waiting_lt e he)
      · rw [List.mem_singleton.mp he]
        exact Nat.lt_succ_self _
    · intro e he hPassed
      rcases List.mem_append.mp he with he | he
      · exact h.apart e he hPassed
      · rw [List.mem_singleton.mp he] at hPassed
        exact Nat.lt_irrefl _ (h.passed_lt _ hPassed)

theorem waiting_eq (pick : α → Bool) {e : Nat × α} (h : (l.waiting.find? fun e => pick e.2) = some e) :
    ∃ younger, l.waiting = l.older pick ++ e :: younger ∧ (l.pass pick).waiting = l.older pick ++ younger := by
  obtain ⟨hPick, older, younger, hSplit, hOlder⟩ := List.find?_eq_some_iff_append.mp h
  have hTake : l.older pick = older := by
    rw [Log.older, hSplit, List.takeWhile_append_of_pos hOlder, List.takeWhile_cons_of_neg (by simpa using hPick),
      List.append_nil]
  have hErase : (e :: younger).eraseP (fun e => pick e.2) = younger := List.eraseP_cons_of_pos hPick
  refine ⟨younger, by rw [hTake, hSplit], ?_⟩
  rw [Log.pass, hTake]
  simp only
  rw [hSplit, List.eraseP_append_right _ fun e' he' => by simpa using hOlder e' he', hErase]

theorem Numbered.older_lt (h : l.Numbered) (pick : α → Bool) {e : Nat × α}
    (hFind : (l.waiting.find? fun e => pick e.2) = some e) :
    (∀ e' ∈ l.older pick, e' ∈ l.waiting ∧ e'.1 < e.1) ∧ ∀ e' ∈ l.waiting, e'.1 < e.1 → e' ∈ l.older pick := by
  obtain ⟨younger, hWaiting, _⟩ := waiting_eq pick hFind
  have hSorted := h.sorted
  rw [hWaiting, List.pairwise_append, List.pairwise_cons] at hSorted
  obtain ⟨_, ⟨hYounger, _⟩, hOlder⟩ := hSorted
  constructor
  · intro e' he'
    exact ⟨hWaiting ▸ List.mem_append_left _ he', hOlder e' he' e List.mem_cons_self⟩
  · intro e' he' hLt
    rw [hWaiting, List.mem_append, List.mem_cons] at he'
    rcases he' with he' | rfl | he'
    · exact he'
    · exact absurd hLt (Nat.lt_irrefl _)
    · exact absurd hLt (Nat.not_lt_of_gt (hYounger e' he'))

theorem Numbered.pass (h : l.Numbered) (pick : α → Bool) : (l.pass pick).Numbered where
  sorted := h.sorted.sublist List.eraseP_sublist
  waiting_lt e he := h.waiting_lt e (List.mem_of_mem_eraseP he)
  passed_lt e he := by
    rcases List.mem_append.mp he with he | he
    · exact h.passed_lt e he
    · rw [Option.mem_toList] at he
      exact h.waiting_lt e (List.mem_of_find?_eq_some he)
  apart e he hPassed := by
    rcases List.mem_append.mp hPassed with hPassed | hPassed
    · exact h.apart e (List.mem_of_mem_eraseP he) hPassed
    · rw [Option.mem_toList] at hPassed
      obtain ⟨younger, hWaiting, hWaiting'⟩ := waiting_eq pick hPassed
      have hSorted := h.sorted
      rw [hWaiting, List.pairwise_append, List.pairwise_cons] at hSorted
      obtain ⟨_, ⟨hYounger, _⟩, hOlder⟩ := hSorted
      rw [hWaiting'] at he
      rcases List.mem_append.mp he with he | he
      · exact Nat.lt_irrefl _ (hOlder e he e List.mem_cons_self)
      · exact Nat.lt_irrefl _ (hYounger e he)

theorem pass_of_none (pick : α → Bool) (h : (l.waiting.find? fun e => pick e.2) = none) : l.pass pick = l := by
  have hErase : (l.waiting.eraseP fun e => pick e.2) = l.waiting :=
    List.eraseP_of_forall_not fun e he => by simpa using List.find?_eq_none.mp h e he
  rw [pass, h, hErase, Option.toList_none, List.append_nil]

theorem pass_conserves (pick : α → Bool) :
    (l.waiting.find? fun e => pick e.2).toList ++ ((l.pass pick).waiting.filter fun e => pick e.2) =
      l.waiting.filter fun e => pick e.2 := by
  cases hFind : l.waiting.find? fun e => pick e.2 with
  | none => rw [pass_of_none pick hFind, Option.toList_none, List.nil_append]
  | some e =>
    obtain ⟨younger, hWaiting, hWaiting'⟩ := waiting_eq pick hFind
    have hPick : pick e.2 = true := (List.find?_eq_some_iff_append.mp hFind).1
    have hOlder : (l.older pick).filter (fun e => pick e.2) = [] :=
      List.filter_eq_nil_iff.mpr fun e' he' => by simpa using List.mem_takeWhile_imp he'
    rw [hWaiting', hWaiting, List.filter_append, List.filter_append, hOlder, List.filter_cons, if_pos hPick]
    rfl

theorem pass_filter_other {pick keep : α → Bool} (hApart : ∀ a, pick a = true → keep a = false) :
    ((l.pass pick).waiting.filter fun e => keep e.2) = l.waiting.filter fun e => keep e.2 := by
  cases hFind : l.waiting.find? fun e => pick e.2 with
  | none => rw [pass_of_none pick hFind]
  | some e =>
    obtain ⟨younger, hWaiting, hWaiting'⟩ := waiting_eq pick hFind
    have hKeep : keep e.2 = false := hApart e.2 (List.find?_eq_some_iff_append.mp hFind).1
    rw [hWaiting', hWaiting, List.filter_append, List.filter_append, List.filter_cons, hKeep]
    rfl

/-- What passes is the first of a kind when nothing of that kind is older. -/
theorem pass_filter_first (pick keep : α → Bool) {e : Nat × α} (hFind : (l.waiting.find? fun e => pick e.2) = some e)
    (hKeep : keep e.2 = true) (hOlder : ∀ e' ∈ l.older pick, keep e'.2 = false) :
    (l.waiting.filter fun e => keep e.2) = e :: (l.pass pick).waiting.filter fun e => keep e.2 := by
  obtain ⟨younger, hWaiting, hWaiting'⟩ := waiting_eq pick hFind
  have hNone : (l.older pick).filter (fun e => keep e.2) = [] :=
    List.filter_eq_nil_iff.mpr fun e' he' => by simp [hOlder e' he']
  rw [hWaiting', hWaiting, List.filter_append, List.filter_append, hNone, List.filter_cons, if_pos hKeep,
    List.nil_append, List.nil_append]

theorem pass_filter_skip (pick keep : α → Bool) {e : Nat × α} (hFind : (l.waiting.find? fun e => pick e.2) = some e)
    (hKeep : keep e.2 = false) :
    ((l.pass pick).waiting.filter fun e => keep e.2) = l.waiting.filter fun e => keep e.2 := by
  obtain ⟨younger, hWaiting, hWaiting'⟩ := waiting_eq pick hFind
  rw [hWaiting', hWaiting, List.filter_append, List.filter_append, List.filter_cons, hKeep]
  rfl

theorem emit_filter (item : Option α) (keep : α → Bool) :
    ((l.emit item).waiting.filter fun e => keep e.2).map Prod.snd =
      (l.waiting.filter fun e => keep e.2).map Prod.snd ++ (item.filter keep).toList := by
  cases item with
  | none => rw [emit, Option.filter_none, Option.toList_none, List.append_nil]
  | some a => cases hKeep : keep a <;> simp [emit, Option.filter, hKeep]

@[simp] theorem emit_passed (item : Option α) : (l.emit item).passed = l.passed := by
  cases item <;> rfl

theorem older_emit {pick : α → Bool} (item : Option α) (h : ∃ e ∈ l.waiting, pick e.2 = true) :
    (l.emit item).older pick = l.older pick := by
  cases item with
  | none => rfl
  | some a =>
    obtain ⟨e, he, hPick⟩ := h
    have hWhole : l.waiting.takeWhile (fun e => !pick e.2) ≠ l.waiting := by
      intro hEq
      have hNot := List.takeWhile_eq_self_iff.mp hEq e he
      rw [hPick] at hNot
      cases hNot
    rw [older, older, emit, List.takeWhile_append, if_neg]
    intro hLength
    exact hWhole ((List.takeWhile_prefix _).eq_of_length hLength)

theorem takeWhile_eraseP_subset {β : Type u} {keep drop : β → Bool} (h : ∀ b, drop b = true → keep b = true) (bs : List β) :
    (bs.eraseP drop).takeWhile keep ⊆ bs.takeWhile keep := by
  induction bs with
  | nil => exact List.Subset.refl _
  | cons b bs ih =>
    cases hDrop : drop b with
    | true =>
      rw [List.eraseP_cons_of_pos hDrop, List.takeWhile_cons_of_pos (h b hDrop)]
      exact List.subset_cons_self _ _
    | false =>
      rw [List.eraseP_cons_of_neg (by simp [hDrop])]
      cases hKeep : keep b with
      | true =>
        rw [List.takeWhile_cons_of_pos hKeep, List.takeWhile_cons_of_pos hKeep]
        exact List.cons_subset_cons _ ih
      | false => simp [hKeep]

/-- An item of another kind that passes does not make anything older. -/
theorem older_pass_subset {pick other : α → Bool} (h : ∀ a, other a = true → pick a = false) :
    (l.pass other).older pick ⊆ l.older pick :=
  takeWhile_eraseP_subset (fun e hOther => by rw [h e.2 hOther]; rfl) l.waiting

theorem mem_emitted_pass (pick : α → Bool) (e : Nat × α) : e ∈ (l.pass pick).emitted ↔ e ∈ l.emitted := by
  cases hFind : l.waiting.find? fun e => pick e.2 with
  | none => rw [pass_of_none pick hFind]
  | some e' =>
    obtain ⟨younger, hWaiting, hWaiting'⟩ := waiting_eq pick hFind
    rw [emitted, emitted, hWaiting', hWaiting, pass, hFind]
    simp only [Option.toList_some, List.mem_append, List.mem_cons, List.not_mem_nil, or_false]
    tauto

theorem pass_perm (pick : α → Bool) : (l.pass pick).emitted.Perm l.emitted := by
  cases hFind : l.waiting.find? fun e => pick e.2 with
  | none => rw [pass_of_none pick hFind]
  | some e =>
    obtain ⟨younger, hWaiting, hWaiting'⟩ := waiting_eq pick hFind
    rw [emitted, emitted, hWaiting', hWaiting, pass, hFind, Option.toList_some, List.append_assoc, List.append_assoc,
      List.cons_append]
    refine List.Perm.append_left _ ?_
    rw [← List.append_assoc]
    exact List.perm_append_comm

theorem emit_perm (item : Option α) :
    ((l.emit item).emitted.map Prod.snd).Perm (l.emitted.map Prod.snd ++ item.toList) := by
  cases item with
  | none => rw [emit, Option.toList_none, List.append_nil]
  | some a =>
    simp only [emitted, emit, List.map_append, List.map_cons, List.map_nil, Option.toList_some, List.append_assoc]
    exact List.Perm.append_left _ List.perm_append_comm

theorem inOrder_emit_iff (h : l.Numbered) (item : Option α) :
    InOrder blocks (l.emit item).emitted (l.emit item).passed ↔ InOrder blocks l.emitted l.passed := by
  cases item with
  | none => rfl
  | some a =>
    constructor
    · intro hOrder before e after hSplit e' he'
      refine hOrder before e after hSplit e' ?_
      rw [emitted, emit, List.append_assoc]
      rcases List.mem_append.mp he' with he' | he'
      · exact List.mem_append_left _ he'
      · exact List.mem_append_right _ (List.mem_append_right _ he')
    · intro hOrder before e after hSplit e' he' hLt hBlocks
      rcases List.mem_append.mp he' with he' | he'
      · rcases List.mem_append.mp he' with he' | he'
        · exact hOrder before e after hSplit e' (List.mem_append_left _ he') hLt hBlocks
        · -- the new item is younger than everything that passed
          have hPassed : e ∈ l.passed := by
            change l.passed = _ at hSplit
            rw [hSplit]
            exact List.mem_append_right _ List.mem_cons_self
          rw [List.mem_singleton.mp he'] at hLt
          exact absurd hLt (Nat.not_lt_of_gt (h.passed_lt e hPassed))
      · exact hOrder before e after hSplit e' (List.mem_append_right _ he') hLt hBlocks

theorem InOrder.take {es passed : List (Nat × α)} (h : InOrder blocks es passed) (k : Nat) :
    InOrder blocks es (passed.take k) := by
  intro before e after hSplit
  refine h before e (after ++ passed.drop k) ?_
  rw [← List.cons_append, ← List.append_assoc, ← hSplit, List.take_append_drop]

/-- The items stay in order exactly when the one that passes leaves none behind that it must not overtake. -/
theorem inOrder_pass_iff (h : l.Numbered) (hOrder : InOrder blocks l.emitted l.passed) (pick : α → Bool) :
    InOrder blocks (l.pass pick).emitted (l.pass pick).passed ↔
      ∀ e ∈ l.waiting.find? fun e => pick e.2, ∀ e' ∈ l.older pick, ¬ blocks e'.2 e.2 := by
  constructor
  · intro hPass e he e' he' hBlocks
    obtain ⟨hOlder, _⟩ := h.older_lt pick he
    obtain ⟨hWaiting, hLt⟩ := hOlder e' he'
    refine h.apart e' hWaiting (hPass l.passed e [] ?_ e' ?_ hLt hBlocks)
    · rw [pass, show l.waiting.find? (fun e => pick e.2) = some e from he]
      rfl
    · exact (mem_emitted_pass pick e').mpr (List.mem_append_left _ hWaiting)
  · intro hFree before e after hSplit e' he' hLt hBlocks
    rw [mem_emitted_pass] at he'
    rw [pass] at hSplit
    cases hFind : l.waiting.find? fun e => pick e.2 with
    | none =>
      rw [hFind, Option.toList_none, List.append_nil] at hSplit
      exact hOrder before e after hSplit e' he' hLt hBlocks
    | some last =>
      rw [hFind, Option.toList_some] at hSplit
      rcases List.eq_nil_or_concat after with rfl | ⟨init, x, rfl⟩
      · obtain ⟨rfl, hLast⟩ := List.append_inj' hSplit rfl
        rw [List.cons.injEq] at hLast
        obtain ⟨rfl, _⟩ := hLast
        rcases List.mem_append.mp he' with hWaiting | hPassed
        · exact absurd hBlocks (hFree last hFind e' ((h.older_lt pick hFind).2 e' hWaiting hLt))
        · exact hPassed
      · rw [List.concat_eq_append, ← List.cons_append, ← List.append_assoc] at hSplit
        obtain ⟨hInit, _⟩ := List.append_inj' hSplit rfl
        exact hOrder before e init hInit e' he' hLt hBlocks

end Log

end KnockoutKraken.Library
