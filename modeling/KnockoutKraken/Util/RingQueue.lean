import KnockoutKraken.Util.FlushQueue
import Mathlib.Data.List.Rotate

/-!
# Queues of any size on their memory

The library queue with a memory of any number of cells, as its consumer
sees it: the cell under the pointer of the consumer first, the others in
the order the pointer comes to them. The first cells hold the items, the
rest what is left over from earlier ones.
-/

namespace KnockoutKraken.Util

universe u

structure RingQueue (α : Type u) where
  cells : List α
  count : Nat
  cells_ne_nil : cells ≠ []
  count_le : count ≤ cells.length

namespace RingQueue

variable {α : Type u}

/-- The empty queue over whatever its memory holds. -/
def reset (front : α) (behind : List α) : RingQueue α := ⟨front :: behind, 0, List.cons_ne_nil _ _, Nat.zero_le _⟩

def sized (m : Nat) (ram : Nat → α) : RingQueue α := reset (ram 0) ((List.range m).map fun k => ram (k + 1))

variable (q : RingQueue α) (enq : Option α) (deqReady : Bool)

def deqBits : α := q.cells.head q.cells_ne_nil

def deqValid : Bool := decide (0 < q.count)

def enqReady : Bool := decide (q.count < q.cells.length)

def items : List α := q.cells.take q.count

def doEnq : Bool := enq.isSome && q.enqReady

def doDeq : Bool := q.deqValid && deqReady

def written : List α := if q.doEnq enq then enq.elim q.cells (q.cells.set q.count) else q.cells

theorem length_written : (q.written enq).length = q.cells.length := by
  rw [written]
  split
  · cases enq <;> simp
  · rfl

theorem count_next_le : q.count + (q.doEnq enq).toNat - (q.doDeq deqReady).toNat ≤ q.cells.length := by
  have hLe := q.count_le
  cases hEnq : q.doEnq enq with
  | false => exact Nat.le_trans (Nat.sub_le _ _) hLe
  | true =>
    have hRoom : q.count < q.cells.length := of_decide_eq_true (Bool.and_eq_true_iff.mp hEnq).2
    exact Nat.le_trans (Nat.sub_le _ _) hRoom

def next : RingQueue α where
  cells := if q.doDeq deqReady then (q.written enq).rotate 1 else q.written enq
  count := q.count + (q.doEnq enq).toNat - (q.doDeq deqReady).toNat
  cells_ne_nil := by
    have hPos := List.length_pos_iff.mpr q.cells_ne_nil
    rw [← q.length_written enq] at hPos
    split
    · exact List.length_pos_iff.mp (by rwa [List.length_rotate])
    · exact List.length_pos_iff.mp hPos
  count_le := by
    have hLe := q.count_next_le enq deqReady
    rw [← q.length_written enq] at hLe
    split
    · rwa [List.length_rotate]
    · exact hLe

@[simp] theorem length_items : q.items.length = q.count := List.length_take_of_le q.count_le

theorem head?_items : q.items.head? = if q.deqValid then some q.deqBits else none := by
  obtain ⟨cells, count, hCells, hCount⟩ := q
  cases count with
  | zero => rfl
  | succ count =>
    obtain ⟨front, behind, rfl⟩ := List.exists_cons_of_ne_nil hCells
    rfl

theorem take_written : (q.written enq).take (q.count + (q.doEnq enq).toNat) =
    q.items ++ if q.doEnq enq then enq.toList else [] := by
  cases hEnq : q.doEnq enq with
  | false => simp [written, hEnq, items]
  | true =>
    obtain ⟨hSome, hReady⟩ := Bool.and_eq_true_iff.mp hEnq
    obtain ⟨item, rfl⟩ := Option.isSome_iff_exists.mp hSome
    have hRoom : q.count < q.cells.length := of_decide_eq_true hReady
    rw [written, if_pos hEnq, Option.elim_some, Bool.toNat_true, if_pos rfl, items,
      List.take_succ_eq_append_getElem (by rwa [List.length_set]), List.take_set_of_le (Nat.le_refl _), List.getElem_set_self]
    rfl

theorem take_rotate {cells : List α} {n : Nat} (h : n + 1 ≤ cells.length) :
    (cells.rotate 1).take n = (cells.take (n + 1)).tail := by
  cases cells with
  | nil => simp
  | cons front behind =>
    rw [List.rotate_cons_succ, List.rotate_zero, List.take_succ_cons, List.tail_cons]
    exact List.take_append_of_le_length (Nat.le_of_succ_le_succ h)

/-- Seen as a list of items the queue is the library queue without pipe and flow. -/
theorem items_next : (q.next enq deqReady).items = ({ entries := q.cells.length } : FlushQueue).next q.items enq deqReady := by
  have hTake := q.take_written enq
  have hEnq : ({ entries := q.cells.length } : FlushQueue).doEnq q.items enq deqReady = q.doEnq enq := by
    simp [FlushQueue.doEnq, FlushQueue.enqReady, doEnq, enqReady]
  have hEmpty : q.items.isEmpty = !q.deqValid := by
    rw [Bool.eq_iff_iff, List.isEmpty_iff_length_eq_zero, length_items, deqValid]
    simp
  have hDeq : FlushQueue.doDeq q.items deqReady = q.doDeq deqReady := by
    rw [FlushQueue.doDeq, hEmpty, Bool.not_not, doDeq]
  rw [FlushQueue.next, hDeq, hEnq]
  cases hPop : q.doDeq deqReady with
  | false =>
    have hNext : (q.next enq deqReady).items = (q.written enq).take (q.count + (q.doEnq enq).toNat) := by
      simp [items, next, hPop]
    rw [hNext, hTake]
    rfl
  | true =>
    have hPos : 0 < q.count := of_decide_eq_true (Bool.and_eq_true_iff.mp hPop).1
    obtain ⟨front, rest, hItems⟩ := List.exists_cons_of_length_pos (l := q.items) (by rwa [length_items])
    have hLast : q.count + (q.doEnq enq).toNat - 1 + 1 = q.count + (q.doEnq enq).toNat := by omega
    have hBound : q.count + (q.doEnq enq).toNat - 1 + 1 ≤ (q.written enq).length := by
      rw [hLast, length_written]
      cases hPush : q.doEnq enq with
      | false => exact q.count_le
      | true => exact of_decide_eq_true (Bool.and_eq_true_iff.mp hPush).2
    have hNext : (q.next enq deqReady).items = ((q.written enq).rotate 1).take (q.count + (q.doEnq enq).toNat - 1) := by
      simp [items, next, hPop]
    rw [hNext, take_rotate hBound, hLast, hTake, hItems]
    rfl

variable {enq} in
theorem items_next_of_ready (hEnq : enq.isSome = true → q.enqReady = true) :
    (q.next enq deqReady).items = (if deqReady then q.items.tail else q.items) ++ enq.toList := by
  rw [items_next]
  refine FlushQueue.next_of_ready rfl fun hSome => ?_
  simpa [FlushQueue.enqReady, enqReady] using hEnq hSome

end RingQueue

end KnockoutKraken.Util
