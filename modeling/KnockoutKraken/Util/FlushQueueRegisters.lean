import KnockoutKraken.Library.Fifo
import KnockoutKraken.Util.FlushQueue

/-!
# Decoupled queues on their registers

The queue with its memory, the two pointers that go around it and the bit
that tells the full queue from the empty one. The items are read back
from these registers, for any number of places; seen so the circuit is
the queue on a list, and a flush starts it over.
-/

namespace KnockoutKraken.Util.FlushQueue

open Library

universe u

variable {n : Nat} {α : Type u}

structure Registers (n : Nat) (α : Type u) where
  ram : Fin (n + 1) → α
  enqPtr : Fin (n + 1)
  deqPtr : Fin (n + 1)
  maybeFull : Bool

structure Input (α : Type u) where
  enq : Option α
  deqReady : Bool
  flush : Bool

def inc (ptr : Fin (n + 1)) : Fin (n + 1) := if ptr = Fin.last n then 0 else ptr + 1

theorem inc_eq (ptr : Fin (n + 1)) : inc ptr = ptr + 1 := by
  rw [inc]
  split
  · next hLast => rw [hLast, Fin.last_add_one]
  · rfl

namespace Registers

/-- The registers after reset, over whatever the memory holds. -/
def reset (ram : Fin (n + 1) → α) : Registers n α := ⟨ram, 0, 0, false⟩

section Wires

variable (r : Registers n α)

def ptrMatch : Bool := decide (r.enqPtr = r.deqPtr)

def empty : Bool := r.ptrMatch && !r.maybeFull

def full : Bool := r.ptrMatch && r.maybeFull

variable (pipe flow : Bool) (i : Input α)

def enqReady : Bool := !i.flush && (!r.full || pipe && i.deqReady)

def deqValid : Bool := !i.flush && (!r.empty || flow && i.enq.isSome)

def deqBits : Option α := if flow && r.empty then i.enq else some (r.ram r.deqPtr)

def enqFire : Bool := i.enq.isSome && r.enqReady pipe i

def deqFire : Bool := r.deqValid flow i && i.deqReady

/-- An item that flows through the empty queue is not written. -/
def doEnq : Bool := r.enqFire pipe i && !(flow && r.empty && i.deqReady)

def doDeq : Bool := r.deqFire flow i && !(flow && r.empty)

def next : Registers n α where
  ram := if r.doEnq pipe flow i then i.enq.elim r.ram (Function.update r.ram r.enqPtr) else r.ram
  enqPtr := if i.flush then 0 else if r.doEnq pipe flow i then inc r.enqPtr else r.enqPtr
  deqPtr := if i.flush then 0 else if r.doDeq flow i then inc r.deqPtr else r.deqPtr
  maybeFull :=
    if i.flush then false else if r.doEnq pipe flow i != r.doDeq flow i then r.doEnq pipe flow i else r.maybeFull

def transfer : Fifo.Transfer α where
  accepted := if r.enqFire pipe i then i.enq else none
  delivered := if r.deqFire flow i then r.deqBits flow i else none
  flush := i.flush

def count : Nat := if r.ptrMatch then if r.maybeFull then n + 1 else 0 else (r.enqPtr - r.deqPtr).val

def items : List α := ring r.ram r.deqPtr r.count

end Wires

variable (n) (α) in
def machine (pipe flow : Bool) : Machine (Registers n α) (Input α) (Fifo.Transfer α) where
  next r i := r.next pipe flow i
  output r i := r.transfer pipe flow i

section Items

variable {r : Registers n α} {k : Nat}

/-- The pointers are `k` places apart, and the bit tells all places from none. -/
structure Spans (r : Registers n α) (k : Nat) : Prop where
  le : k ≤ n + 1
  enqPtr : r.enqPtr = r.deqPtr + Fin.ofNat (n + 1) k
  full : k = n + 1 → r.maybeFull = true
  empty : k = 0 → r.maybeFull = false

theorem ofNat_places : Fin.ofNat (n + 1) (n + 1) = 0 := Fin.ext (Nat.mod_self _)

theorem spans_count (r : Registers n α) : r.Spans r.count := by
  rw [count]
  split
  · next hMatch =>
    have hPtr : r.enqPtr = r.deqPtr := of_decide_eq_true hMatch
    split
    · next hFull =>
      refine ⟨le_rfl, ?_, fun _ => hFull, fun hZero => absurd hZero (Nat.succ_ne_zero n)⟩
      rw [ofNat_places, add_zero, hPtr]
    · next hEmpty =>
      refine ⟨Nat.zero_le _, ?_, fun hZero => absurd hZero.symm (Nat.succ_ne_zero n), fun _ => Bool.eq_false_of_not_eq_true hEmpty⟩
      exact hPtr.trans (add_zero _).symm
  · next hMatch =>
    have hPtr : r.enqPtr ≠ r.deqPtr := fun hEq => hMatch (decide_eq_true hEq)
    have hLt : (r.enqPtr - r.deqPtr).val < n + 1 := (r.enqPtr - r.deqPtr).isLt
    refine ⟨hLt.le, ?_, fun hEq => absurd hEq hLt.ne, fun hZero => absurd (sub_eq_zero.mp (Fin.ext hZero)) hPtr⟩
    rw [Fin.ofNat_val_eq_self, add_sub_cancel]

theorem Spans.count_eq (h : r.Spans k) : r.count = k := by
  have hPtr := h.enqPtr
  rcases Nat.eq_zero_or_pos k with rfl | hPos
  · have hMatch : r.ptrMatch = true := decide_eq_true (hPtr.trans (add_zero _))
    rw [count, if_pos hMatch, h.empty rfl]
    rfl
  · rcases h.le.eq_or_lt with rfl | hLt
    · have hMatch : r.ptrMatch = true := decide_eq_true (by rw [hPtr, ofNat_places, add_zero])
      rw [count, if_pos hMatch, if_pos (h.full rfl)]
    · have hGap : r.enqPtr - r.deqPtr = Fin.ofNat (n + 1) k := sub_eq_of_eq_add' hPtr
      have hVal : (r.enqPtr - r.deqPtr).val = k := (congrArg Fin.val hGap).trans (Nat.mod_eq_of_lt hLt)
      have hMatch : ¬ r.ptrMatch = true := by
        intro hEq
        rw [of_decide_eq_true hEq, sub_self] at hVal
        exact hPos.ne hVal
      rw [count, if_neg hMatch, hVal]

theorem empty_eq (r : Registers n α) : r.empty = decide (r.count = 0) := by
  have hSpans := r.spans_count
  rw [Bool.eq_iff_iff, decide_eq_true_iff, empty, Bool.and_eq_true, Bool.not_eq_true']
  constructor
  · rintro ⟨hMatch, hBit⟩
    rw [count, if_pos hMatch, hBit]
    rfl
  · intro hZero
    rw [hZero] at hSpans
    exact ⟨decide_eq_true (hSpans.enqPtr.trans (add_zero _)), hSpans.empty rfl⟩

theorem full_eq (r : Registers n α) : r.full = decide (r.count = n + 1) := by
  have hSpans := r.spans_count
  rw [Bool.eq_iff_iff, decide_eq_true_iff, full, Bool.and_eq_true]
  constructor
  · rintro ⟨hMatch, hBit⟩
    rw [count, if_pos hMatch, if_pos hBit]
  · intro hFull
    rw [hFull] at hSpans
    exact ⟨decide_eq_true (by rw [hSpans.enqPtr, ofNat_places, add_zero]), hSpans.full rfl⟩

theorem ptr_succ (ptr : Fin (n + 1)) (k : Nat) : ptr + Fin.ofNat (n + 1) (k + 1) = ptr + 1 + Fin.ofNat (n + 1) k := by
  rw [ofNat_succ, add_assoc]

theorem isEmpty_items (r : Registers n α) : r.items.isEmpty = r.empty := by
  rw [empty_eq, Bool.eq_iff_iff, List.isEmpty_iff_length_eq_zero, items, length_ring, decide_eq_true_iff]

theorem items_of_count (h : r.count = k + 1) : r.items = r.ram r.deqPtr :: ring r.ram (r.deqPtr + 1) k := by
  rw [items, h]
  rfl

theorem items_push {r' : Registers n α} {item : α} (hRoom : r.count ≤ n)
    (hRam : r'.ram = Function.update r.ram r.enqPtr item) (hEnq : r'.enqPtr = inc r.enqPtr)
    (hDeq : r'.deqPtr = r.deqPtr) (hBit : r'.maybeFull = true) : r'.items = r.items ++ [item] := by
  have hSpans := r.spans_count
  have hNext : r'.Spans (r.count + 1) := by
    refine ⟨Nat.succ_le_succ hRoom, ?_, fun _ => hBit, fun hZero => absurd hZero (Nat.succ_ne_zero _)⟩
    rw [hEnq, hDeq, inc_eq, hSpans.enqPtr, ptr_succ, add_right_comm]
  rw [items, hNext.count_eq, hRam, hDeq, hSpans.enqPtr, ring_update r.ram r.deqPtr hRoom, items]

theorem items_pop {r' : Registers n α} (hHeld : r.count = k + 1) (hRam : r'.ram = r.ram) (hEnq : r'.enqPtr = r.enqPtr)
    (hDeq : r'.deqPtr = inc r.deqPtr) (hBit : r'.maybeFull = false) : r'.items = r.items.tail := by
  have hSpans := hHeld ▸ r.spans_count
  have hNext : r'.Spans k := by
    refine ⟨(Nat.le_succ k).trans hSpans.le, ?_, fun hFull => absurd (hFull ▸ hSpans.le) (Nat.not_succ_le_self _), fun _ => hBit⟩
    rw [hEnq, hDeq, inc_eq, hSpans.enqPtr, ptr_succ]
  rw [items, hNext.count_eq, hRam, hDeq, inc_eq, items_of_count hHeld, List.tail_cons]

/-- The head leaves and an item is written in the same cycle, into its place when the queue is full. -/
theorem items_both {r' : Registers n α} {item : α} (hHeld : r.count = k + 1)
    (hRam : r'.ram = Function.update r.ram r.enqPtr item) (hEnq : r'.enqPtr = inc r.enqPtr)
    (hDeq : r'.deqPtr = inc r.deqPtr) (hBit : r'.maybeFull = r.maybeFull) : r'.items = r.items.tail ++ [item] := by
  have hSpans := hHeld ▸ r.spans_count
  have hNext : r'.Spans (k + 1) := by
    refine ⟨hSpans.le, ?_, fun hFull => hBit.trans (hSpans.full hFull), fun hZero => absurd hZero (Nat.succ_ne_zero k)⟩
    rw [hEnq, hDeq, inc_eq, inc_eq, hSpans.enqPtr, add_right_comm]
  rw [items, hNext.count_eq, hRam, hDeq, inc_eq, hSpans.enqPtr, ptr_succ, ring_update _ _ (Nat.le_of_succ_le_succ hSpans.le),
    items_of_count hHeld, List.tail_cons]

end Items

section Refinement

variable (pipe flow : Bool) (r : Registers n α) (i : Input α)

theorem enqReady_items (hFlush : i.flush = false) :
    (⟨n + 1, pipe, flow⟩ : FlushQueue).enqReady r.items i.deqReady = r.enqReady pipe i := by
  have hLe := r.spans_count.le
  have hRoom : decide (r.items.length < n + 1) = !r.full := by
    rw [full_eq, items, length_ring, Bool.eq_iff_iff, decide_eq_true_iff, Bool.not_eq_true', decide_eq_false_iff_not]
    exact ⟨fun hLt => hLt.ne, fun hNe => hLe.lt_of_ne hNe⟩
  rw [FlushQueue.enqReady, enqReady, hRoom, hFlush]
  rfl

theorem doEnq_items (hFlush : i.flush = false) :
    (⟨n + 1, pipe, flow⟩ : FlushQueue).doEnq r.items i.enq i.deqReady = r.doEnq pipe flow i := by
  rw [FlushQueue.doEnq, enqReady_items pipe flow r i hFlush, isEmpty_items, doEnq, enqFire]

theorem doDeq_items (hFlush : i.flush = false) : FlushQueue.doDeq r.items i.deqReady = r.doDeq flow i := by
  rw [FlushQueue.doDeq, isEmpty_items, doDeq, deqFire, deqValid, hFlush]
  cases r.empty <;> cases flow <;> cases i.deqReady <;> simp

theorem deqBits_items (hFlush : i.flush = false) :
    (⟨n + 1, pipe, flow⟩ : FlushQueue).deqBits r.items i.enq = if r.deqValid flow i then r.deqBits flow i else none := by
  rw [deqValid, deqBits, hFlush, empty_eq]
  cases hCount : r.count with
  | zero =>
    have hNil : r.items = [] := by rw [items, hCount]; rfl
    rw [hNil]
    cases flow <;> cases i.enq <;> rfl
  | succ k =>
    rw [items_of_count hCount]
    cases flow <;> rfl

theorem held_of_doDeq (hFlush : i.flush = false) (hDeq : r.doDeq flow i = true) : ∃ k, r.count = k + 1 := by
  rw [← doDeq_items flow r i hFlush, FlushQueue.doDeq, isEmpty_items, empty_eq, Bool.and_eq_true, Bool.not_eq_true',
    decide_eq_false_iff_not] at hDeq
  exact Nat.exists_eq_succ_of_ne_zero hDeq.1

/-- A full queue writes an item only when its head leaves. -/
theorem room_of_doEnq (hFlush : i.flush = false) (hEnq : r.doEnq pipe flow i = true) (hDeq : r.doDeq flow i = false) :
    r.count ≤ n := by
  have hLe := r.spans_count.le
  rw [← doEnq_items pipe flow r i hFlush, FlushQueue.doEnq, FlushQueue.enqReady, items, length_ring] at hEnq
  rw [← doDeq_items flow r i hFlush, FlushQueue.doDeq, isEmpty_items, empty_eq] at hDeq
  simp only [Bool.and_eq_true, Bool.or_eq_true, decide_eq_true_eq] at hEnq
  rcases hEnq.1.2 with hLt | ⟨-, hReady⟩
  · exact Nat.le_of_lt_succ hLt
  · rw [hReady, Bool.and_true, Bool.not_eq_false', decide_eq_true_iff] at hDeq
    exact hDeq ▸ Nat.zero_le n

/-- Without a flush the circuit is the queue on a list, and a flush empties it. -/
theorem items_next : (r.next pipe flow i).items =
    if i.flush then [] else (⟨n + 1, pipe, flow⟩ : FlushQueue).next r.items i.enq i.deqReady := by
  cases hFlush : i.flush with
  | true =>
    have hNext : (r.next pipe flow i).Spans 0 := by
      refine ⟨Nat.zero_le _, ?_, fun hZero => absurd hZero.symm (Nat.succ_ne_zero n), fun _ => by rw [next, hFlush]; rfl⟩
      rw [next, hFlush]
      rfl
    rw [items, hNext.count_eq]
    rfl
  | false =>
    rw [FlushQueue.next, doEnq_items pipe flow r i hFlush, doDeq_items flow r i hFlush]
    have hEnqPtr : (r.next pipe flow i).enqPtr = if r.doEnq pipe flow i then inc r.enqPtr else r.enqPtr := by
      rw [next, hFlush]; rfl
    have hDeqPtr : (r.next pipe flow i).deqPtr = if r.doDeq flow i then inc r.deqPtr else r.deqPtr := by
      rw [next, hFlush]; rfl
    have hBit : (r.next pipe flow i).maybeFull =
        if r.doEnq pipe flow i != r.doDeq flow i then r.doEnq pipe flow i else r.maybeFull := by
      rw [next, hFlush]; rfl
    have hRam : (r.next pipe flow i).ram =
        if r.doEnq pipe flow i then i.enq.elim r.ram (Function.update r.ram r.enqPtr) else r.ram := rfl
    cases hEnq : r.doEnq pipe flow i with
    | false =>
      rw [hEnq] at hEnqPtr hBit hRam
      cases hDeq : r.doDeq flow i with
      | false =>
        rw [hDeq] at hDeqPtr hBit
        have hSame : r.next pipe flow i = r := by
          cases hNext : r.next pipe flow i
          rw [hNext] at hEnqPtr hDeqPtr hBit hRam
          cases r
          congr
        rw [hSame]
        exact (List.append_nil _).symm
      | true =>
        rw [hDeq] at hDeqPtr hBit
        obtain ⟨k, hHeld⟩ := held_of_doDeq flow r i hFlush hDeq
        exact (items_pop hHeld hRam hEnqPtr hDeqPtr hBit).trans (List.append_nil _).symm
    | true =>
      rw [hEnq] at hEnqPtr hBit hRam
      obtain ⟨item, hItem⟩ : ∃ item, i.enq = some item := by
        rw [doEnq, enqFire, Bool.and_eq_true, Bool.and_eq_true] at hEnq
        exact Option.isSome_iff_exists.mp hEnq.1.1
      rw [hItem] at hRam ⊢
      cases hDeq : r.doDeq flow i with
      | false =>
        rw [hDeq] at hDeqPtr hBit
        exact items_push (room_of_doEnq pipe flow r i hFlush hEnq hDeq) hRam hEnqPtr hDeqPtr hBit
      | true =>
        rw [hDeq] at hDeqPtr hBit
        obtain ⟨k, hHeld⟩ := held_of_doDeq flow r i hFlush hDeq
        exact items_both hHeld hRam hEnqPtr hDeqPtr hBit

theorem cycle : Fifo.Cycle (n + 1) r.items (r.transfer pipe flow i) (r.next pipe flow i).items where
  bounded := by
    rw [items, length_ring]
    exact (spans_count _).le
  flushed := by
    intro hFlush
    have hFlush : i.flush = true := hFlush
    rw [items_next, if_pos hFlush, transfer, enqFire, enqReady, deqFire, deqValid, hFlush]
    simp
  conserved := by
    intro hFlush
    have hFlush : i.flush = false := hFlush
    have hIn : (r.transfer pipe flow i).accepted =
        if (⟨n + 1, pipe, flow⟩ : FlushQueue).enqReady r.items i.deqReady then i.enq else none := by
      rw [enqReady_items pipe flow r i hFlush, transfer, enqFire]
      cases i.enq <;> simp
    have hOut : (r.transfer pipe flow i).delivered =
        if i.deqReady then (⟨n + 1, pipe, flow⟩ : FlushQueue).deqBits r.items i.enq else none := by
      rw [deqBits_items pipe flow r i hFlush, transfer, deqFire]
      cases r.deqValid flow i <;> cases i.deqReady <;> rfl
    rw [items_next, hFlush, hIn, hOut]
    exact ports_conserve (Nat.succ_pos n) i.enq i.deqReady

/-- What the ports show. With `pipe` a full queue takes an item as its head leaves, with `flow` the empty one shows the
item that is offered. -/
structure Shows : Prop where
  enqReady : r.enqReady pipe i = (!i.flush && (decide (r.items.length < n + 1) || pipe && i.deqReady))
  deqValid : r.deqValid flow i = (!i.flush && (!r.items.isEmpty || flow && i.enq.isSome))
  deqBits : r.deqValid flow i = true → r.deqBits flow i = r.items.head?.or i.enq

theorem shows : r.Shows pipe flow i where
  enqReady := by
    cases hFlush : i.flush with
    | true => rw [Registers.enqReady, hFlush, Bool.not_true, Bool.false_and, Bool.false_and]
    | false => rw [← enqReady_items pipe flow r i hFlush, FlushQueue.enqReady, Bool.not_false, Bool.true_and]
  deqValid := by rw [Registers.deqValid, isEmpty_items]
  deqBits hValid := by
    obtain ⟨hFlush, hSome⟩ := Bool.and_eq_true_iff.mp hValid
    have hBits := deqBits_items pipe flow r i (Bool.not_eq_true' _ ▸ hFlush)
    rw [if_pos hValid] at hBits
    rw [← hBits]
    cases hItems : r.items with
    | cons item rest => rfl
    | nil =>
      have hEmpty : r.empty = true := by rw [← isEmpty_items, hItems]; rfl
      rw [hEmpty, Bool.not_true, Bool.false_or, Bool.and_eq_true] at hSome
      rw [FlushQueue.deqBits, hSome.1]
      rfl

end Refinement

/-- On every trace the items delivered since the last flush, followed by those still held, are the
items accepted since then; never more than fit are held, and nothing crosses the ports in a flush.
In every cycle the ports show what the items held and the two settings make of it. -/
theorem refines_fifo (pipe flow : Bool) (ram : Fin (n + 1) → α) (is : List (Input α)) :
    Fifo.Ledger (n + 1) ((machine n α pipe flow).trace (reset ram) is) ((machine n α pipe flow).run (reset ram) is).items ∧
      (machine n α pipe flow).Along (fun r i => r.Shows pipe flow i) (reset ram) is :=
  ⟨Fifo.ledger_of_cycles items (cycle pipe flow) rfl is, Machine.along_of_forall (shows pipe flow) _ is⟩

end Registers

end KnockoutKraken.Util.FlushQueue
