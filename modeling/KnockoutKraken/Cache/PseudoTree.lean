import KnockoutKraken.Cache.LRUCore
import KnockoutKraken.Library.PointerTree

/-!
# The pseudo-tree replacement order

The encoding lists the pointers of a tree over the ways, each node before
its left and its right half. The two recursions of the core over the
encoding point to a leaf of that tree and touch one.
-/

namespace KnockoutKraken.Cache

open Library

namespace PseudoTreeLRUCore

def tree (encodingI : Nat → Bool) : (k startIndex : Nat) → PointerTree k
  | 0, _ => .leaf
  | k + 1, startIndex =>
    .node (encodingI startIndex) fun side => tree encodingI k (if side then startIndex + 2 ^ k else startIndex + 1)

/-- The encoding bits from the root of the subtree at `startIndex` to a way. -/
def path (way : Nat) : (k startIndex : Nat) → List Nat
  | 0, _ => []
  | k + 1, startIndex =>
    startIndex :: path way k (if way.testBit k then startIndex + 2 ^ k else startIndex + 1)

variable (encodingI : Nat → Bool)

theorem getLRU_eq (k startIndex : Nat) : getLRU encodingI k startIndex = (tree encodingI k startIndex).pointed := by
  induction k generalizing startIndex with
  | zero => rfl
  | succ k ih => simp only [getLRU, tree, PointerTree.pointed, ih]

theorem updateEncoding_of_notMem {way k startIndex i : Nat} (hi : i ∉ path way k startIndex) :
    updateEncoding encodingI way k startIndex i = encodingI i := by
  induction k generalizing startIndex with
  | zero => rfl
  | succ k ih =>
    obtain ⟨hRoot, hRest⟩ := List.ne_and_not_mem_of_not_mem_cons hi
    rw [updateEncoding, Function.update_of_ne hRoot]
    exact ih hRest

theorem path_mem_bounds {way k startIndex i : Nat} (hi : i ∈ path way k startIndex) :
    startIndex ≤ i ∧ i + 1 < startIndex + 2 ^ k := by
  induction k generalizing startIndex with
  | zero => cases hi
  | succ k ih =>
    have hPos := Nat.two_pow_pos k
    rw [Nat.pow_succ]
    rcases List.mem_cons.mp hi with rfl | hRest
    · omega
    · have hSub := ih hRest
      split at hSub <;> omega

theorem tree_congr {e e' : Nat → Bool} {k startIndex : Nat}
    (h : ∀ i, startIndex ≤ i → i + 1 < startIndex + 2 ^ k → e i = e' i) : tree e k startIndex = tree e' k startIndex := by
  induction k generalizing startIndex with
  | zero => rfl
  | succ k ih =>
    have hPos := Nat.two_pow_pos k
    rw [Nat.pow_succ] at h
    rw [tree, tree, h startIndex (Nat.le_refl _) (by omega)]
    congr 1
    funext side
    apply ih
    intro i hLow hHigh
    cases side <;> simp only [Bool.false_eq_true, if_true, if_false] at hLow hHigh <;> exact h i (by omega) (by omega)

theorem eq_of_tree_eq {e e' : Nat → Bool} {k startIndex i : Nat} (h : tree e k startIndex = tree e' k startIndex)
    (hLow : startIndex ≤ i) (hHigh : i + 1 < startIndex + 2 ^ k) : e i = e' i := by
  induction k generalizing startIndex with
  | zero => omega
  | succ k ih =>
    rw [Nat.pow_succ] at hHigh
    rw [tree, tree, PointerTree.node.injEq] at h
    obtain ⟨hRoot, hChild⟩ := h
    rcases Nat.eq_or_lt_of_le hLow with rfl | hLow
    · exact hRoot
    rcases Nat.lt_or_ge i (startIndex + 2 ^ k) with hLeft | hRight
    · exact ih (congrFun hChild false) hLow (by simp only [Bool.false_eq_true, if_false]; omega)
    · exact ih (congrFun hChild true) hRight (by simp only [if_true]; omega)

theorem tree_updateEncoding (way k startIndex : Nat) :
    tree (updateEncoding encodingI way k startIndex) k startIndex = (tree encodingI k startIndex).touch way := by
  induction k generalizing startIndex with
  | zero => rfl
  | succ k ih =>
    have hPos := Nat.two_pow_pos k
    have hRoot : updateEncoding encodingI way (k + 1) startIndex startIndex = !way.testBit k := by
      rw [updateEncoding, Function.update_self]
      cases encodingI startIndex <;> cases way.testBit k <;> rfl
    rw [tree, tree, PointerTree.touch, hRoot]
    congr 1
    funext side
    -- The half the way is in is updated, the other half has no bit of the path.
    rcases Bool.eq_or_eq_not side (way.testBit k) with rfl | rfl
    · rw [Function.update_self, ← ih]
      apply tree_congr
      intro i hLow _
      rw [updateEncoding, Function.update_of_ne (by split at hLow <;> omega)]
    · rw [Function.update_of_ne (Bool.not_ne_self _)]
      apply tree_congr
      intro i hLow hHigh
      apply updateEncoding_of_notMem
      intro hMem
      rcases List.mem_cons.mp hMem with rfl | hRest
      · split at hLow <;> omega
      · have hBounds := path_mem_bounds hRest
        cases hBit : way.testBit k <;>
          simp only [hBit, Bool.not_true, Bool.not_false, Bool.false_eq_true, if_true, if_false] at hLow hHigh hBounds <;>
          omega

section Core

variable {wayWidth : Nat}

abbrev Encoding (wayWidth : Nat) := Fin (PseudoTreeLRUCore wayWidth).encodingWidth → Bool

/-- The encoding as a sequence of bits, with zeros after the last one. -/
def bits (encoding : Encoding wayWidth) (i : Nat) : Bool :=
  if h : i < 2 ^ wayWidth - 1 then encoding ⟨i, h⟩ else false

theorem bits_val (encoding : Encoding wayWidth) (i : Fin (PseudoTreeLRUCore wayWidth).encodingWidth) :
    bits encoding i.val = encoding i := dif_pos i.isLt

def root (encoding : Encoding wayWidth) : PointerTree wayWidth := tree (bits encoding) wayWidth 0

theorem root_injective : Function.Injective (root : Encoding wayWidth → PointerTree wayWidth) := by
  intro e e' hEq
  funext i
  have hLt : i.val < 2 ^ wayWidth - 1 := i.isLt
  rw [← bits_val e, ← bits_val e']
  exact eq_of_tree_eq hEq (Nat.zero_le i.val) (by omega)

theorem lruO_eq (encoding : Encoding wayWidth) :
    ((PseudoTreeLRUCore wayWidth).lruO encoding).val = (root encoding).pointed := getLRU_eq (bits encoding) wayWidth 0

theorem root_encodingO (encoding : Encoding wayWidth) (way : Fin (2 ^ wayWidth)) :
    root ((PseudoTreeLRUCore wayWidth).encodingO encoding way) = (root encoding).touch way.val := by
  rw [root, root, ← tree_updateEncoding]
  apply tree_congr
  intro i _ hHigh
  have hi : i < 2 ^ wayWidth - 1 := by omega
  rw [bits, dif_pos hi]
  rfl

def replace (encoding : Encoding wayWidth) : Encoding wayWidth :=
  (PseudoTreeLRUCore wayWidth).encodingO encoding ((PseudoTreeLRUCore wayWidth).lruO encoding)

theorem root_replace_iterate (encoding : Encoding wayWidth) (n : Nat) :
    root (replace^[n] encoding) = PointerTree.advance^[n] (root encoding) := by
  have hStep : Function.Semiconj (root : Encoding wayWidth → PointerTree wayWidth) replace
      PointerTree.advance := by
    intro e
    rw [replace, root_encodingO, lruO_eq, PointerTree.advance]
  exact (hStep.iterate_right n).eq encoding

end Core

/-- The replacement order over `2 ^ (wayWidth + 1)` ways: a touched way is not the next victim and
only the bits of its path change; replacing as often as there are ways takes each of them once and
ends where it began. -/
theorem replacement_order (wayWidth : Nat) (encoding : Encoding (wayWidth + 1)) :
    (∀ way : Fin (2 ^ (wayWidth + 1)),
      (PseudoTreeLRUCore (wayWidth + 1)).lruO ((PseudoTreeLRUCore (wayWidth + 1)).encodingO encoding way) ≠ way ∧
      ∀ i, i.val ∉ path way.val (wayWidth + 1) 0 →
        (PseudoTreeLRUCore (wayWidth + 1)).encodingO encoding way i = encoding i) ∧
    (∀ way : Fin (2 ^ (wayWidth + 1)), ∃! n : Fin (2 ^ (wayWidth + 1)),
      (PseudoTreeLRUCore (wayWidth + 1)).lruO (replace^[n.val] encoding) = way) ∧
    replace^[2 ^ (wayWidth + 1)] encoding = encoding := by
  refine ⟨fun way => ⟨?_, ?_⟩, ?_, ?_⟩
  · intro hEq
    have hVal := congrArg Fin.val hEq
    rw [lruO_eq, root_encodingO] at hVal
    exact PointerTree.pointed_touch_ne way.val (root encoding) hVal
  · intro i hi
    rw [← bits_val encoding i]
    exact updateEncoding_of_notMem (bits encoding) hi
  · intro way
    have hOnce := PointerTree.existsUnique_pointed (root encoding) way
    simpa only [Fin.ext_iff, lruO_eq, root_replace_iterate] using hOnce
  · apply root_injective
    rw [root_replace_iterate, PointerTree.advance_two_pow]

end PseudoTreeLRUCore

end KnockoutKraken.Cache
