import KnockoutKraken.Library.Indices
import KnockoutKraken.Library.Machine
import Mathlib.Data.List.DropRight
import Mathlib.Algebra.Group.Fin.Basic

/-!
# Queues that can be flushed

The purpose of a bounded queue, as one relation between its contents and
what crosses its ports in a cycle, and what follows for whole runs. The
contents may lie in a ring of cells of any size, read from a pointer on.
-/

namespace KnockoutKraken.Library

universe u v w

namespace Fifo

variable {α : Type u}

structure Transfer (α : Type u) where
  accepted : Option α
  delivered : Option α
  flush : Bool

/-- One cycle of a queue with `capacity` places. -/
structure Cycle (capacity : Nat) (items : List α) (t : Transfer α) (items' : List α) : Prop where
  bounded : items'.length ≤ capacity
  flushed : t.flush = true → t.accepted = none ∧ t.delivered = none ∧ items' = []
  conserved : t.flush = false → t.delivered.toList ++ items' = items ++ t.accepted.toList

def sinceFlush (ts : List (Transfer α)) : List (Transfer α) := ts.rtakeWhile (!·.flush)

def accepted (ts : List (Transfer α)) : List α := ts.filterMap Transfer.accepted

def delivered (ts : List (Transfer α)) : List α := ts.filterMap Transfer.delivered

theorem accepted_concat (ts : List (Transfer α)) (t : Transfer α) : accepted (ts ++ [t]) = accepted ts ++ t.accepted.toList := by
  rw [accepted, List.filterMap_append, accepted, List.filterMap_cons, List.filterMap_nil]
  cases t.accepted <;> rfl

theorem delivered_concat (ts : List (Transfer α)) (t : Transfer α) :
    delivered (ts ++ [t]) = delivered ts ++ t.delivered.toList := by
  rw [delivered, List.filterMap_append, delivered, List.filterMap_cons, List.filterMap_nil]
  cases t.delivered <;> rfl

/-- The transfers `ts` leave the queue with `items`. -/
structure Ledger (capacity : Nat) (ts : List (Transfer α)) (items : List α) : Prop where
  bounded : items.length ≤ capacity
  flushed : ∀ t ∈ ts, t.flush = true → t.accepted = none ∧ t.delivered = none
  conserved : delivered (sinceFlush ts) ++ items = accepted (sinceFlush ts)

theorem Ledger.nil (capacity : Nat) : Ledger capacity [] ([] : List α) where
  bounded := Nat.zero_le _
  flushed := fun _ ht => absurd ht List.not_mem_nil
  conserved := by rw [sinceFlush, List.rtakeWhile_nil]; rfl

theorem Ledger.concat {capacity : Nat} {ts : List (Transfer α)} {t : Transfer α} {items items' : List α}
    (h : Ledger capacity ts items) (hCycle : Cycle capacity items t items') : Ledger capacity (ts ++ [t]) items' where
  bounded := hCycle.bounded
  flushed := by
    intro t' ht' hFlush
    rcases List.mem_append.mp ht' with hBefore | hNow
    · exact h.flushed t' hBefore hFlush
    · obtain rfl := List.mem_singleton.mp hNow
      exact ⟨(hCycle.flushed hFlush).1, (hCycle.flushed hFlush).2.1⟩
  conserved := by
    cases hFlush : t.flush with
    | true =>
      rw [sinceFlush, List.rtakeWhile_concat_neg _ _ _ (by simp [hFlush]), (hCycle.flushed hFlush).2.2]
      rfl
    | false =>
      have hSince : sinceFlush (ts ++ [t]) = sinceFlush ts ++ [t] := List.rtakeWhile_concat_pos _ _ _ (by simp [hFlush])
      calc delivered (sinceFlush (ts ++ [t])) ++ items'
          = delivered (sinceFlush ts) ++ (t.delivered.toList ++ items') := by
            rw [hSince, delivered_concat, List.append_assoc]
        _ = delivered (sinceFlush ts) ++ items ++ t.accepted.toList := by
            rw [hCycle.conserved hFlush, List.append_assoc]
        _ = accepted (sinceFlush (ts ++ [t])) := by rw [h.conserved, hSince, accepted_concat]

/-- A machine whose cycles are those of a queue keeps the ledger of a queue. -/
theorem ledger_of_cycles {σ : Type v} {ι : Type w} {m : Machine σ ι (Transfer α)} {capacity : Nat} (stock : σ → List α)
    (cycle : ∀ s i, Cycle capacity (stock s) (m.output s i) (stock (m.next s i))) {s : σ} (hEmpty : stock s = [])
    (is : List ι) : Ledger capacity (m.trace s is) (stock (m.run s is)) := by
  have hAlong : m.Along (fun _ _ => True) s is := Machine.along_of_forall (fun _ _ => trivial) s is
  let kept : List (Transfer α) → σ → Prop := fun ts s => Ledger capacity ts (stock s)
  have hNil : Ledger capacity [] (stock s) := hEmpty.symm ▸ Ledger.nil capacity
  have hStart : kept [] s := hNil
  have hStep : ∀ ts s i, kept ts s → True → kept (ts ++ [m.output s i]) (m.next s i) := fun _ s i h _ => Ledger.concat h (cycle s i)
  exact hAlong.history [] hStart hStep

end Fifo

section Ring

variable {α : Type u} {n : Nat}

/-- The cells of a memory of `n + 1` from a pointer on, around the end. -/
def ring (ram : Fin (n + 1) → α) : Fin (n + 1) → Nat → List α
  | _, 0 => []
  | ptr, k + 1 => ram ptr :: ring ram (ptr + 1) k

@[simp] theorem length_ring (ram : Fin (n + 1) → α) (ptr : Fin (n + 1)) (k : Nat) : (ring ram ptr k).length = k := by
  induction k generalizing ptr with
  | zero => rfl
  | succ k ih => rw [ring, List.length_cons, ih]

theorem ofNat_succ (k : Nat) : Fin.ofNat (n + 1) (k + 1) = 1 + Fin.ofNat (n + 1) k := by
  apply Fin.ext
  simp [Fin.val_add, Nat.add_comm]

theorem ring_update (ram : Fin (n + 1) → α) (ptr : Fin (n + 1)) {k : Nat} (hk : k ≤ n) (item : α) :
    ring (Function.update ram (ptr + Fin.ofNat (n + 1) k) item) ptr (k + 1) = ring ram ptr k ++ [item] := by
  induction k generalizing ptr with
  | zero => simp [ring]
  | succ k ih =>
    have hBehind : ptr + Fin.ofNat (n + 1) (k + 1) = ptr + 1 + Fin.ofNat (n + 1) k := by rw [ofNat_succ, add_assoc]
    have hNe : ptr ≠ ptr + Fin.ofNat (n + 1) (k + 1) := by
      intro hEq
      have hVal : (k + 1) % (n + 1) = 0 := congrArg Fin.val (left_eq_add.mp hEq)
      rw [Nat.mod_eq_of_lt (Nat.lt_succ_of_le hk)] at hVal
      cases hVal
    rw [ring, Function.update_of_ne hNe, hBehind, ih (ptr + 1) ((Nat.le_succ k).trans hk)]
    rfl

end Ring

end KnockoutKraken.Library
