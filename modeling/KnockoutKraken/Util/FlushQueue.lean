import KnockoutKraken.Library.Tokens

/-!
# Decoupled queues

A queue of `entries` places between a producer and a consumer, as the
list of its items, oldest first. With `pipe` a full queue accepts an
item in the cycle its head leaves; with `flow` an item offered to the
empty queue is already seen by the consumer. The library queue without
flush is the same circuit.
-/

namespace KnockoutKraken.Util

open Library

structure FlushQueue where
  entries : Nat
  pipe : Bool := false
  flow : Bool := false

namespace FlushQueue

universe u v
variable {α : Type u} (q : FlushQueue) (items : List α)

def enqReady (deqReady : Bool) : Bool := decide (items.length < q.entries) || q.pipe && deqReady

/-- The item shown to the consumer, `none` when the output is not valid. -/
def deqBits (enq : Option α) : Option α :=
  match items with
  | item :: _ => some item
  | [] => if q.flow then enq else none

def doEnq (enq : Option α) (deqReady : Bool) : Bool :=
  enq.isSome && q.enqReady items deqReady && !(q.flow && items.isEmpty && deqReady)

def doDeq (items : List α) (deqReady : Bool) : Bool := !items.isEmpty && deqReady

def next (enq : Option α) (deqReady : Bool) : List α :=
  (if doDeq items deqReady then items.tail else items) ++
    (if q.doEnq items enq deqReady then enq.toList else [])

variable {q} {items}

@[simp] theorem deqBits_cons (item : α) (enq : Option α) : q.deqBits (item :: items) enq = some item := rfl

theorem deqBits_nil (h : q.flow = false) (enq : Option α) : q.deqBits [] enq = none := by
  rw [deqBits, h]
  rfl

theorem next_none (deqReady : Bool) :
    q.next items none deqReady = if deqReady then items.tail else items := by
  cases deqReady <;> cases items <;> simp [next, doEnq, doDeq]

theorem length_next_le (hPos : 0 < q.entries) (h : items.length ≤ q.entries) (enq : Option α) (deqReady : Bool) :
    (q.next items enq deqReady).length ≤ q.entries := by
  cases enq with
  | none =>
    rw [next_none]
    cases deqReady
    · exact h
    · rw [if_pos rfl, List.length_tail]
      omega
  | some item =>
    rw [next, List.length_append]
    by_cases hEnq : q.doEnq items (some item) deqReady = true
    · have hReady : q.enqReady items deqReady = true := by
        simp only [doEnq, Bool.and_eq_true] at hEnq
        exact hEnq.1.2
      simp only [enqReady, Bool.or_eq_true, decide_eq_true_eq, Bool.and_eq_true] at hReady
      rw [if_pos hEnq, Option.toList_some, List.length_singleton]
      cases items with
      | nil => simpa [doDeq] using Nat.succ_le_of_lt hPos
      | cons head tail =>
        simp only [List.length_cons] at h hReady
        cases deqReady <;> simp [doDeq] at hReady ⊢ <;> omega
    · rw [if_neg hEnq, List.length_nil]
      cases hDeq : doDeq items deqReady
      · simpa using h
      · simp only [if_pos, List.length_tail]
        omega

theorem next_single {enq : Option α} {deqReady : Bool} {item : α} (hOne : q.entries = 1) (hFlow : q.flow = false)
    (h : items.length ≤ 1) (hEnq : enq = some item) (hReady : q.enqReady items deqReady = true) :
    q.next items enq deqReady = [item] := by
  subst hEnq
  have hDo : q.doEnq items (some item) deqReady = true := by simp [doEnq, hReady, hFlow]
  rw [next, if_pos hDo]
  cases items with
  | nil => cases deqReady <;> rfl
  | cons head tail =>
    have hTail : tail = [] := List.eq_nil_of_length_eq_zero (by simp only [List.length_cons] at h; omega)
    have hDeq : deqReady = true := by
      simp only [enqReady, hOne, List.length_cons, hTail, List.length_nil, Bool.or_eq_true, decide_eq_true_eq,
        Bool.and_eq_true] at hReady
      exact (hReady.resolve_left (by omega)).2
    simp [doDeq, hDeq, hTail]

/-- A queue that always leaves room never holds more than what just came in. -/
theorem next_of_deqReady (hFlow : q.flow = false) (h : items.length ≤ 1)
    (enq : Option α) (hPipe : q.pipe = true) : q.next items enq true = enq.toList := by
  have hReady : q.enqReady items true = true := by simp [enqReady, hPipe]
  cases enq with
  | none =>
    rw [next_none, if_pos rfl]
    exact List.eq_nil_of_length_eq_zero (by rw [List.length_tail]; omega)
  | some item =>
    have hDo : q.doEnq items (some item) true = true := by simp [doEnq, hReady, hFlow]
    rw [next, if_pos hDo]
    cases items with
    | nil => rfl
    | cons head tail =>
      have hTail : tail = [] := List.eq_nil_of_length_eq_zero (by simp only [List.length_cons] at h; omega)
      simp [doDeq, hTail]

theorem next_nil_none (deqReady : Bool) : q.next ([] : List α) none deqReady = [] := by
  rw [next_none]
  cases deqReady <;> rfl

theorem mem_of_mem_next {enq : Option α} {deqReady : Bool} {item : α} (h : item ∈ q.next items enq deqReady) :
    item ∈ items ∨ enq = some item := by
  rw [next, List.mem_append] at h
  rcases h with hStay | hEnq
  · split at hStay
    · exact .inl (List.mem_of_mem_tail hStay)
    · exact .inl hStay
  · split at hEnq
    · exact .inr (Option.mem_toList.mp hEnq)
    · cases hEnq

theorem deqBits_none : q.deqBits items none = items.head? := by
  cases items with
  | nil => simp [deqBits]
  | cons => rfl

theorem next_of_ready (hFlow : q.flow = false) {enq : Option α} {deqReady : Bool}
    (hEnq : enq.isSome = true → q.enqReady items deqReady = true) :
    q.next items enq deqReady = (if deqReady then items.tail else items) ++ enq.toList := by
  have hIn : (if q.doEnq items enq deqReady then enq.toList else []) = enq.toList := by
    cases enq with
    | none => simp
    | some item => rw [if_pos (by simp [doEnq, hEnq rfl, hFlow])]
  rw [next, hIn]
  cases deqReady <;> cases items <;> simp [doDeq]

variable (q) (items) in
theorem length_next (enq : Option α) (deqReady : Bool) (hFlow : q.flow = false)
    (hEnq : enq.isSome = true → q.enqReady items deqReady = true) :
    (q.next items enq deqReady).length + (doDeq items deqReady).toNat = items.length + enq.isSome.toNat := by
  rw [next_of_ready hFlow hEnq, List.length_append]
  cases enq <;> cases deqReady <;> cases items <;> simp [doDeq]

variable (q) (items) in
theorem next_accepted (enq : Option α) (deqReady : Bool) :
    q.next items (if q.enqReady items deqReady then enq else none) deqReady = q.next items enq deqReady := by
  cases hReady : q.enqReady items deqReady <;> cases enq <;> simp [next, doEnq, hReady]

/-- What leaves and what stays is what was there and what came in. -/
theorem next_conserves (hFlow : q.flow = false) {enq : Option α} {deqReady : Bool}
    (hEnq : enq.isSome = true → q.enqReady items deqReady = true) :
    (if deqReady then q.deqBits items none else none).toList ++ q.next items enq deqReady = items ++ enq.toList := by
  rw [next_of_ready hFlow hEnq, deqBits_none]
  cases deqReady <;> cases items <;> simp

/-- What crosses the ports in a cycle, with the item that flows through on both sides. -/
theorem ports_conserve (hPos : 0 < q.entries) (enq : Option α) (deqReady : Bool) :
    (if deqReady then q.deqBits items enq else none).toList ++ q.next items enq deqReady =
      items ++ (if q.enqReady items deqReady then enq else none).toList := by
  cases items with
  | nil =>
    have hReady : q.enqReady ([] : List α) deqReady = true := Bool.or_eq_true_iff.mpr (.inl (decide_eq_true hPos))
    rw [hReady, next, doEnq, hReady]
    cases enq <;> cases hFlow : q.flow <;> cases deqReady <;> simp [deqBits, doDeq, hFlow]
  | cons head tail =>
    rw [next, doEnq, deqBits_cons]
    cases q.enqReady (head :: tail) deqReady <;> cases enq <;> cases deqReady <;> simp [doDeq]

theorem next_some_ne_nil (hFlow : q.flow = false) {deqReady : Bool} (hReady : q.enqReady items deqReady = true) (item : α) :
    q.next items (some item) deqReady ≠ [] := by
  have hDo : q.doEnq items (some item) deqReady = true := by simp [doEnq, hReady, hFlow]
  rw [next, if_pos hDo]
  simp

variable (q) (items) in
theorem tokens_next {τ : Type v} [DecidableEq τ] (enq : Option α) (deqReady : Bool) (token : α → τ) (t : τ)
    (hFlow : q.flow = false) (hEnq : enq.isSome = true → q.enqReady items deqReady = true) :
    tokens token t (q.next items enq deqReady) + held token t (if deqReady then items.head? else none) =
      tokens token t items + held token t enq := by
  have hSum := congrArg (tokens token t) (next_conserves hFlow hEnq)
  rw [tokens_append, tokens_append, deqBits_none] at hSum
  exact (Nat.add_comm _ _).trans hSum

/-- Conservation over one cycle and over the cycles after it. -/
theorem conserves_trans {out out' before between after enq enq' : List α} (h : out ++ between = before ++ enq)
    (h' : out' ++ after = between ++ enq') : (out ++ out') ++ after = before ++ (enq ++ enq') := by
  rw [List.append_assoc, h', ← List.append_assoc, h, List.append_assoc]

end FlushQueue

end KnockoutKraken.Util
