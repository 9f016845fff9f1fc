import KnockoutKraken.Util.FlushQueue
import Mathlib.Data.BitVec

/-!
# Queues on their memory

The library queue with its memory of `2 ^ k` cells and the pointer of its
consumer. The consumer always sees the cell under its pointer, also when
the queue is empty and the cell is left over from an earlier item.
-/

namespace KnockoutKraken.Util

open Library

universe u v

structure RamQueue (k : Nat) (α : Type u) where
  ram : BitVec k → α
  deqPtr : BitVec k
  count : Nat
  count_le : count ≤ 2 ^ k

namespace RamQueue

variable {k : Nat} {α : Type u}

/-- The empty queue after reset, over whatever the memory holds. -/
def reset (ram : BitVec k → α) : RamQueue k α := ⟨ram, 0, 0, Nat.zero_le _⟩

variable (q : RamQueue k α)

def deqBits : α := q.ram q.deqPtr

def cell (n : Nat) : BitVec k := q.deqPtr + BitVec.ofNat k n

def items : List α := (List.range q.count).map fun n => q.ram (q.cell n)

variable (pipe : Bool) (enq : Option α) (deqReady : Bool)

def deqValid : Bool := decide (0 < q.count)

def enqReady : Bool := decide (q.count < 2 ^ k) || pipe && deqReady

def doEnq : Bool := enq.isSome && q.enqReady pipe deqReady

def doDeq : Bool := q.deqValid && deqReady

theorem count_next_le : q.count + (q.doEnq pipe enq deqReady).toNat - (q.doDeq deqReady).toNat ≤ 2 ^ k := by
  have hLe := q.count_le
  have hPos := Nat.two_pow_pos k
  by_cases hFull : q.count < 2 ^ k
  · have := Bool.toNat_le (q.doEnq pipe enq deqReady)
    omega
  · by_cases hDeq : q.doDeq deqReady = true
    · rw [hDeq, Bool.toNat_true]
      have := Bool.toNat_le (q.doEnq pipe enq deqReady)
      omega
    · have hReady : deqReady = false := by
        simp only [doDeq, deqValid, Bool.and_eq_true, decide_eq_true_eq, not_and, Bool.not_eq_true] at hDeq
        exact hDeq (by omega)
      have hEnq : q.doEnq pipe enq deqReady = false := by simp [doEnq, enqReady, hFull, hReady]
      rw [hEnq, Bool.toNat_false]
      omega

def next : RamQueue k α where
  ram := if q.doEnq pipe enq deqReady then fun cell => if cell = q.cell q.count then enq.getD (q.ram cell) else q.ram cell else q.ram
  deqPtr := if q.doDeq deqReady then q.deqPtr + 1 else q.deqPtr
  count := q.count + (q.doEnq pipe enq deqReady).toNat - (q.doDeq deqReady).toNat
  count_le := q.count_next_le pipe enq deqReady

variable {q} {pipe} {enq} {deqReady}

theorem items_reset (ram : BitVec k → α) : (reset ram).items = [] := rfl

@[simp] theorem length_items : q.items.length = q.count := by rw [items, List.length_map, List.length_range]

theorem cell_succ (n : Nat) : q.cell (n + 1) = q.deqPtr + 1 + BitVec.ofNat k n := by
  rw [cell, BitVec.ofNat_add, BitVec.add_assoc, BitVec.add_comm (BitVec.ofNat k n)]
  rfl

theorem items_of_pos (h : 0 < q.count) :
    q.items = q.deqBits :: (List.range (q.count - 1)).map fun n => q.ram (q.deqPtr + 1 + BitVec.ofNat k n) := by
  obtain ⟨n, hn⟩ := Nat.exists_eq_succ_of_ne_zero h.ne'
  rw [items, hn, List.range_succ_eq_map, List.map_cons, List.map_map, Nat.succ_sub_one]
  refine congrArg₂ List.cons ?_ (List.map_congr_left fun m _ => congrArg q.ram (cell_succ m))
  simp [deqBits, cell]

theorem head?_items : q.items.head? = if q.deqValid then some q.deqBits else none := by
  by_cases h : 0 < q.count
  · rw [items_of_pos h, deqValid, decide_eq_true h]
    rfl
  · have hZero : q.count = 0 := by omega
    simp [deqValid, items, hZero]

theorem ptr_injective {ptr : BitVec k} {n m : Nat} (hn : n < 2 ^ k) (hm : m < 2 ^ k)
    (h : ptr + BitVec.ofNat k n = ptr + BitVec.ofNat k m) : n = m := by
  have hNat := congrArg BitVec.toNat ((BitVec.add_right_inj ptr).mp h)
  rwa [BitVec.toNat_ofNat, BitVec.toNat_ofNat, Nat.mod_eq_of_lt hn, Nat.mod_eq_of_lt hm] at hNat

theorem map_write (ram : BitVec k → α) (ptr : BitVec k) {n : Nat} (hn : n < 2 ^ k) (item : α) :
    ((List.range (n + 1)).map fun m =>
        if ptr + BitVec.ofNat k m = ptr + BitVec.ofNat k n then item else ram (ptr + BitVec.ofNat k m)) =
      ((List.range n).map fun m => ram (ptr + BitVec.ofNat k m)) ++ [item] := by
  rw [List.range_succ, List.map_append, List.map_singleton, if_pos rfl]
  refine congrArg (· ++ [item]) (List.map_congr_left fun m hm => ?_)
  have hLt : m < n := List.mem_range.mp hm
  exact if_neg fun hEq => hLt.ne (ptr_injective (by omega) hn hEq)

theorem doDeq_items : FlushQueue.doDeq q.items deqReady = q.doDeq deqReady := by
  rw [FlushQueue.doDeq, doDeq, deqValid]
  by_cases h : 0 < q.count
  · rw [items_of_pos h, decide_eq_true h]
    rfl
  · simp [List.eq_nil_of_length_eq_zero (length_items.trans (show q.count = 0 by omega)), h]

/-- Seen as a list of items the queue is the library queue without flow. -/
theorem items_next : (q.next pipe enq deqReady).items =
    ({ entries := 2 ^ k, pipe := pipe } : FlushQueue).next q.items enq deqReady := by
  have hEnq : ({ entries := 2 ^ k, pipe := pipe } : FlushQueue).doEnq q.items enq deqReady = q.doEnq pipe enq deqReady := by
    simp [FlushQueue.doEnq, FlushQueue.enqReady, doEnq, enqReady]
  rw [FlushQueue.next, doDeq_items, hEnq]
  cases hPush : q.doEnq pipe enq deqReady with
  | false =>
    cases hPop : q.doDeq deqReady with
    | false => simp [items, next, cell, hPush, hPop]
    | true =>
      have hPos : 0 < q.count := by
        simp only [doDeq, deqValid, Bool.and_eq_true, decide_eq_true_eq] at hPop
        exact hPop.1
      rw [items_of_pos hPos]
      simp [items, next, cell, hPush, hPop]
  | true =>
    obtain ⟨item, hItem⟩ : ∃ item, enq = some item := by
      simp only [doEnq, Bool.and_eq_true] at hPush
      exact Option.isSome_iff_exists.mp hPush.1
    subst hItem
    cases hPop : q.doDeq deqReady with
    | false =>
      have hRoom : q.count < 2 ^ k := by
        simp only [doEnq, enqReady, doDeq, deqValid, Bool.and_eq_true, Bool.or_eq_true, decide_eq_true_eq,
          Bool.and_eq_false_iff, decide_eq_false_iff_not] at hPush hPop
        rcases hPush.2 with hLt | ⟨-, hReady⟩
        · exact hLt
        · rcases hPop with hEmpty | hNot
          · exact Nat.lt_of_le_of_lt (Nat.le_of_not_lt hEmpty) (Nat.two_pow_pos k)
          · rw [hReady] at hNot
            cases hNot
      simpa [items, next, cell, hPush, hPop] using map_write q.ram q.deqPtr hRoom item
    | true =>
      have hPos : 0 < q.count := by
        simp only [doDeq, deqValid, Bool.and_eq_true, decide_eq_true_eq] at hPop
        exact hPop.1
      obtain ⟨n, hn⟩ := Nat.exists_eq_succ_of_ne_zero hPos.ne'
      have hRoom : n < 2 ^ k := by
        have := q.count_le
        omega
      have hRam : (q.next pipe (some item) deqReady).ram =
          fun c => if c = q.deqPtr + 1 + BitVec.ofNat k n then item else q.ram c := by
        have hCell : q.cell q.count = q.deqPtr + 1 + BitVec.ofNat k n := by rw [hn, cell_succ]
        refine (if_pos hPush).trans ?_
        rw [hCell]
        rfl
      have hPtr : (q.next pipe (some item) deqReady).deqPtr = q.deqPtr + 1 := if_pos hPop
      have hCount : (q.next pipe (some item) deqReady).count = n + 1 := by
        simp only [next, hPush, hPop, hn, Bool.toNat_true]
        rfl
      rw [items_of_pos hPos, items, hCount]
      simp only [cell, hRam, hPtr, if_pos, hn]
      exact map_write q.ram (q.deqPtr + 1) hRoom item

theorem deqBits_next (hValid : q.deqValid = true) (hStay : q.doDeq deqReady = false) :
    (q.next pipe enq deqReady).deqValid = true ∧ (q.next pipe enq deqReady).deqBits = q.deqBits := by
  have hPos : 0 < q.count := of_decide_eq_true hValid
  have hHead : (q.next pipe enq deqReady).items.head? = some q.deqBits := by
    rw [items_next, FlushQueue.next, doDeq_items, hStay, items_of_pos hPos]
    rfl
  rw [head?_items] at hHead
  split at hHead
  · next h => exact ⟨h, Option.some.inj hHead⟩
  · cases hHead

theorem deqBits_mem (hValid : q.deqValid = true) : q.deqBits ∈ q.items := by
  refine List.mem_of_mem_head? ?_
  rw [head?_items, hValid]
  rfl

theorem mem_of_mem_next {item : α} (h : item ∈ (q.next pipe enq deqReady).items) : item ∈ q.items ∨ enq = some item := by
  rw [items_next] at h
  exact FlushQueue.mem_of_mem_next h

theorem ram_next_eq (cell : BitVec k) : (q.next pipe enq deqReady).ram cell = q.ram cell ∨
    enq = some ((q.next pipe enq deqReady).ram cell) := by
  rw [next]
  cases enq with
  | none => exact .inl rfl
  | some item =>
    dsimp only
    split
    · rcases eq_or_ne cell (q.cell q.count) with hCell | hCell
      · exact .inr (congrArg some (if_pos hCell).symm)
      · exact .inl (if_neg hCell)
    · exact .inl rfl

variable (q) (pipe) (enq) (deqReady) in
theorem items_conserved : (if q.doDeq deqReady then [q.deqBits] else []) ++ (q.next pipe enq deqReady).items =
    q.items ++ (if q.enqReady pipe deqReady then enq else none).toList := by
  have hIn : (if ({ entries := 2 ^ k, pipe := pipe } : FlushQueue).doEnq q.items enq deqReady then enq.toList else []) =
      (if q.enqReady pipe deqReady then enq else none).toList := by
    have hReady : ({ entries := 2 ^ k, pipe := pipe } : FlushQueue).enqReady q.items deqReady = q.enqReady pipe deqReady := by
      simp [FlushQueue.enqReady, enqReady]
    rw [FlushQueue.doEnq, hReady]
    cases q.enqReady pipe deqReady <;> cases enq <;> simp
  rw [items_next, FlushQueue.next, hIn, doDeq_items, ← List.append_assoc]
  refine congrArg (· ++ _) ?_
  cases hDeq : q.doDeq deqReady with
  | false => simp
  | true =>
    have hPos : 0 < q.count := by
      simp only [doDeq, deqValid, Bool.and_eq_true, decide_eq_true_eq] at hDeq
      exact hDeq.1
    rw [items_of_pos hPos]
    rfl

variable (q) (pipe) (enq) (deqReady) in
theorem tokens_next {τ : Type v} [DecidableEq τ] (token : α → τ) (t : τ) :
    tokens token t (q.next pipe enq deqReady).items + held token t (if q.doDeq deqReady then some q.deqBits else none) =
      tokens token t q.items + held token t (if q.enqReady pipe deqReady then enq else none) := by
  have hSum := congrArg (tokens token t) (items_conserved q pipe enq deqReady)
  rw [tokens_append, tokens_append, tokens_toList] at hSum
  have hOut : tokens token t (if q.doDeq deqReady then [q.deqBits] else []) =
      held token t (if q.doDeq deqReady then some q.deqBits else none) := by
    cases q.doDeq deqReady <;> rfl
  rw [hOut] at hSum
  exact (Nat.add_comm _ _).trans hSum

end RamQueue

end KnockoutKraken.Util
