import KnockoutKraken.Cache.LRUCore
import KnockoutKraken.Library.Recency
import Mathlib.Data.List.ProdSigma

/-!
# The matrix replacement order

The core keeps a bit for every two different ways, set when the first was
touched after the second, and stores them row by row without the diagonal.
A way whose row is zero was touched after no other. The core is modelled
over `m + 1` ways; every value of the port of the touched way is a number.
-/

namespace KnockoutKraken.Cache

open Library

namespace MatrixLRUCore

universe u v

/-- Rows of one length lie behind each other in their concatenation. -/
theorem row_of_getElem?_flatMap {α : Type u} {β : Type v} {l : List α} {f : α → List β} {width k : Nat} {b : β}
    (hWidth : 0 < width) (hRows : ∀ a ∈ l, (f a).length = width) (h : (l.flatMap f)[k]? = some b) :
    ∃ a, l[k / width]? = some a ∧ b ∈ f a := by
  induction l generalizing k with
  | nil => cases h
  | cons a l ih =>
    obtain ⟨hHead, hTail⟩ := List.forall_mem_cons.mp hRows
    rw [List.flatMap_cons] at h
    rcases Nat.lt_or_ge k width with hLt | hGe
    · rw [List.getElem?_append_left (hHead.symm ▸ hLt)] at h
      rw [Nat.div_eq_of_lt hLt]
      exact ⟨a, rfl, List.mem_of_getElem? h⟩
    · rw [List.getElem?_append_right (hHead.symm ▸ hGe), hHead] at h
      rw [Nat.div_eq_sub_div hWidth hGe]
      exact ih hTail h

variable {m : Nat}

/-- The cells off the diagonal, in the order of the two loops. -/
def cells (m : Nat) : List (Fin (m + 1) × Fin (m + 1)) :=
  (List.finRange (m + 1) ×ˢ List.finRange (m + 1)).filter fun cell => cell.1 ≠ cell.2

def row (i : Fin (m + 1)) : List (Fin (m + 1)) := (List.finRange (m + 1)).filter fun j => i ≠ j

theorem mem_cells {i j : Fin (m + 1)} : (i, j) ∈ cells m ↔ i ≠ j := by
  simp [cells]

theorem nodup_cells (m : Nat) : (cells m).Nodup :=
  ((List.nodup_finRange _).product (List.nodup_finRange _)).filter _

theorem cells_eq (m : Nat) : cells m = (List.finRange (m + 1)).flatMap fun i => (row i).map (Prod.mk i) := by
  have hProduct : List.finRange (m + 1) ×ˢ List.finRange (m + 1) =
      (List.finRange (m + 1)).flatMap fun i => (List.finRange (m + 1)).map (Prod.mk i) := rfl
  rw [cells, hProduct, List.filter_flatMap]
  refine List.flatMap_congr fun i _ => ?_
  rw [List.filter_map, row]
  rfl

theorem length_row (i : Fin (m + 1)) : (row i).length = m := by
  have hErase : row i = (List.finRange (m + 1)).erase i := by
    rw [(List.nodup_finRange _).erase_eq_filter, row]
    refine List.filter_congr fun j _ => ?_
    rw [Bool.eq_iff_iff, decide_eq_true_iff, bne_iff_ne, ne_comm]
  rw [hErase, List.length_erase_of_mem (List.mem_finRange i), List.length_finRange, Nat.add_sub_cancel]

theorem length_cells (m : Nat) : (cells m).length = (m + 1) * m := by
  rw [cells_eq, List.length_flatMap]
  simp [length_row]

theorem encodingCnt_lt {i j : Fin (m + 1)} (h : i ≠ j) : (cells m).idxOf (i, j) < (m + 1) * m :=
  length_cells m ▸ List.idxOf_lt_length_of_mem (mem_cells.mpr h)

def encodingCnt {i j : Fin (m + 1)} (h : i ≠ j) : Fin ((m + 1) * m) := ⟨(cells m).idxOf (i, j), encodingCnt_lt h⟩

def cell (k : Fin ((m + 1) * m)) : Fin (m + 1) × Fin (m + 1) := (cells m).get (k.cast (length_cells m).symm)

def matrix (encodingI : Fin ((m + 1) * m) → Bool) (i j : Fin (m + 1)) : Bool :=
  if h : i = j then false else encodingI (encodingCnt h)

def updatedMatrix (matrix : Fin (m + 1) → Fin (m + 1) → Bool) (lruI : Nat) (i j : Fin (m + 1)) : Bool :=
  if i = j then false else if i.val = lruI then true else if j.val = lruI then false else matrix i j

def allZeroRow (matrix : Fin (m + 1) → Fin (m + 1) → Bool) (i : Fin (m + 1)) : Bool := decide (∀ j, matrix i j = false)

def flattenedMatrix (matrix : Fin (m + 1) → Fin (m + 1) → Bool) (k : Fin ((m + 1) * m)) : Bool :=
  matrix (cell k).1 (cell k).2

/-- The priority encoder names the last way when no row is zero. -/
def lruO (encodingI : Fin ((m + 1) * m) → Bool) : Fin (m + 1) := (lowest (allZeroRow (matrix encodingI))).getD (Fin.last m)

def encodingO (encodingI : Fin ((m + 1) * m) → Bool) (lruI : Nat) : Fin ((m + 1) * m) → Bool :=
  flattenedMatrix (updatedMatrix (matrix encodingI) lruI)

section Layout

variable {i j : Fin (m + 1)} {k : Fin ((m + 1) * m)}

theorem cell_encodingCnt (h : i ≠ j) : cell (encodingCnt h) = (i, j) := List.idxOf_get _

theorem cell_ne (k : Fin ((m + 1) * m)) : (cell k).1 ≠ (cell k).2 := mem_cells.mp (List.get_mem _ _)

theorem encodingCnt_cell (k : Fin ((m + 1) * m)) : encodingCnt (cell_ne k) = k :=
  Fin.ext ((nodup_cells m).idxOf_getElem k.val _)

theorem cell_row (k : Fin ((m + 1) * m)) : (cell k).1.val = k.val / m := by
  have hWidth : 0 < m := Nat.pos_of_ne_zero fun hZero => by
    subst hZero
    exact k.elim0
  have hGet : (cells m)[k.val]? = some (cell k) := List.getElem?_eq_getElem _
  rw [cells_eq] at hGet
  obtain ⟨i, hRow, hMem⟩ := row_of_getElem?_flatMap hWidth (fun a _ => (List.length_map _).trans (length_row a)) hGet
  obtain ⟨j, _, hCell⟩ := List.mem_map.mp hMem
  obtain ⟨hLt, hIndex⟩ := List.getElem?_eq_some_iff.mp hRow
  rw [← hCell, ← hIndex, List.getElem_finRange]
  rfl

theorem matrix_flattenedMatrix {matrix' : Fin (m + 1) → Fin (m + 1) → Bool} (hDiag : ∀ i, matrix' i i = false) :
    matrix (flattenedMatrix matrix') = matrix' := by
  funext i j
  rw [matrix]
  split
  · next hEq => rw [hEq, hDiag]
  · next hNe => rw [flattenedMatrix, cell_encodingCnt]

theorem flattenedMatrix_matrix (encodingI : Fin ((m + 1) * m) → Bool) : flattenedMatrix (matrix encodingI) = encodingI := by
  funext k
  rw [flattenedMatrix, matrix, dif_neg (cell_ne k), encodingCnt_cell]

end Layout

/-- Every bit says which of two ways was touched later. -/
theorem matrix_touched (touches : List Nat) (i j : Fin (m + 1)) :
    matrix (touches.foldl encodingO fun _ => false) i j = decide (age touches i.val < age touches j.val) := by
  induction touches using List.reverseRecOn with
  | nil =>
    rw [List.foldl_nil, matrix, age_nil, age_nil]
    split <;> rfl
  | append_singleton touches lruI ih =>
    rw [List.foldl_append, List.foldl_cons, List.foldl_nil, encodingO, matrix_flattenedMatrix (fun i => if_pos rfl),
      age_concat, age_concat, updatedMatrix, ih]
    rcases eq_or_ne i j with rfl | hNe
    · rw [if_pos rfl]
      exact (decide_eq_false (lt_irrefl _)).symm
    · rw [if_neg hNe]
      split
      · next hi =>
        have hj : ¬ j.val = lruI := fun hj => hNe (Fin.ext (hi.trans hj.symm))
        rw [if_neg hj]
        exact (decide_eq_true (Nat.succ_pos _)).symm
      · split
        · exact (decide_eq_false (Nat.not_lt_zero _)).symm
        · exact decide_eq_decide.mpr Nat.succ_lt_succ_iff.symm

theorem lruO_touched (touches : List Nat) :
    LeastRecent touches (lruO (touches.foldl encodingO fun _ => false) : Fin (m + 1)) := by
  have hRows : allZeroRow (matrix (touches.foldl encodingO fun _ => false)) = oldest (n := m + 1) touches := by
    funext i
    rw [allZeroRow, oldest, decide_eq_decide]
    refine forall_congr' fun j => ?_
    rw [matrix_touched, decide_eq_false_iff_not, Nat.not_lt]
  obtain ⟨way, hLowest, hLeast⟩ := leastRecent_of_oldest (n := m) touches
  rw [lruO, hRows, hLowest]
  exact hLeast

/-- From the zeroed encoding on the core names the least recently used way after every touch, and
the encoding keeps the cells off the diagonal, each row in bits of its own. -/
theorem least_recently_used (m : Nat) :
    (∀ touches : List Nat, LeastRecent touches (lruO (touches.foldl encodingO fun _ => false) : Fin (m + 1))) ∧
    (∀ M : Fin (m + 1) → Fin (m + 1) → Bool, (∀ i, M i i = false) → matrix (flattenedMatrix M) = M) ∧
    (∀ e : Fin ((m + 1) * m) → Bool, flattenedMatrix (matrix e) = e) ∧
    (∀ (e e' : Fin ((m + 1) * m) → Bool) (i : Fin (m + 1)), (∀ k, k.val / m = i.val → e k = e' k) → matrix e i = matrix e' i) ∧
    ∀ (M M' : Fin (m + 1) → Fin (m + 1) → Bool) (k : Fin ((m + 1) * m)),
      (∀ i, i.val = k.val / m → M i = M' i) → flattenedMatrix M k = flattenedMatrix M' k := by
  refine ⟨lruO_touched, fun M hDiag => matrix_flattenedMatrix hDiag, flattenedMatrix_matrix, fun e e' i hBits => ?_,
    fun M M' k hRow => ?_⟩
  · funext j
    rw [matrix, matrix]
    split
    · rfl
    · next hNe =>
      refine hBits _ ?_
      rw [← cell_row, cell_encodingCnt]
  · rw [flattenedMatrix, flattenedMatrix, hRow _ (cell_row k)]

end MatrixLRUCore

def MatrixLRUCore (wayWidth : Nat) : LRUCore wayWidth where
  encodingWidth := (2 ^ wayWidth - 1 + 1) * (2 ^ wayWidth - 1)
  lruO encodingI := (MatrixLRUCore.lruO encodingI).cast (Nat.sub_add_cancel (Nat.two_pow_pos wayWidth))
  encodingO encodingI lruI := MatrixLRUCore.encodingO encodingI lruI.val

end KnockoutKraken.Cache
