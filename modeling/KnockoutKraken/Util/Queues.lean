import KnockoutKraken.Util.FlushQueue
import Mathlib.Data.BitVec
import Mathlib.Data.Nat.Log

/-!
# Queues for requests of two latencies, and credits

A request that is not answered at once moves from the base queue to the
long queue and leaves that queue when its answer comes. A credit counter
is to keep a producer from sending more than its receiver has room for.
-/

namespace KnockoutKraken.Util

open Library

universe u v

structure DoubleLatencyQueueCtrl where
  drop : Bool
  done : Bool
  long : Bool
  longDone : Bool
deriving DecidableEq

structure DoubleLatencyQueue (α : Type u) where
  baseQ : List α
  longQ : List α

namespace DoubleLatencyQueue

variable {α : Type u}

def reset : DoubleLatencyQueue α := ⟨[], []⟩

variable (maxElements : Nat) (q : DoubleLatencyQueue α) (ctrl : DoubleLatencyQueueCtrl)

/-- Both queues are plain ones, without pipe and flow. -/
def queue : FlushQueue := { entries := maxElements }

def reqReady : Bool := (queue maxElements).enqReady q.baseQ false

def baseReady : Bool := ctrl.drop || ctrl.done || ctrl.long

/-- What is shown for an answer: the head of the base queue when it is done, else the head of the long one. -/
def resp : Option α := if ctrl.done then q.baseQ.head? else q.longQ.head?

/-- The long queue is offered the head of the base queue, whether or not it has room for it. -/
def longEnq : Option α := if ctrl.long then q.baseQ.head? else none

def next (req : Option α) : DoubleLatencyQueue α where
  baseQ := (queue maxElements).next q.baseQ req (baseReady ctrl)
  longQ := (queue maxElements).next q.longQ (q.longEnq ctrl) ctrl.longDone

def count : Nat := q.baseQ.length + q.longQ.length

/-- Their number, in the few bits of the port. -/
def pending : Nat := q.count % 2 ^ Nat.clog 2 maxElements

variable {maxElements} {q} {ctrl}

/-- The port shows zero for an empty queue only, as long as the count fits in it. -/
theorem pending_eq_zero_iff (h : q.count < 2 ^ Nat.clog 2 maxElements) :
    q.pending maxElements = 0 ↔ q.baseQ = [] ∧ q.longQ = [] := by
  rw [pending, Nat.mod_eq_of_lt h, count, Nat.add_eq_zero_iff, List.length_eq_zero_iff, List.length_eq_zero_iff]

theorem mem_base_of_next {req : Option α} {item : α} (h : item ∈ (q.next maxElements ctrl req).baseQ) :
    item ∈ q.baseQ ∨ req = some item :=
  FlushQueue.mem_of_mem_next h

theorem mem_long_of_next {req : Option α} {item : α} (h : item ∈ (q.next maxElements ctrl req).longQ) :
    item ∈ q.longQ ∨ item ∈ q.baseQ := by
  refine (FlushQueue.mem_of_mem_next h).imp_right fun hEnq => ?_
  rw [longEnq] at hEnq
  split at hEnq
  · exact List.mem_of_mem_head? hEnq
  · cases hEnq

theorem next_empty_none : (reset : DoubleLatencyQueue α).next maxElements ctrl none = reset := by
  have hLong : longEnq (reset : DoubleLatencyQueue α) ctrl = none := by
    rw [longEnq]
    exact ite_self none
  rw [next, hLong]
  exact congrArg₂ mk (FlushQueue.next_nil_none _) (FlushQueue.next_nil_none _)

theorem mem_of_resp {item : α} (h : q.resp ctrl = some item) : item ∈ q.baseQ ∨ item ∈ q.longQ := by
  rw [resp] at h
  split at h
  · exact .inl (List.mem_of_mem_head? h)
  · exact .inr (List.mem_of_mem_head? h)

variable (maxElements) (q) (ctrl) in
theorem tokens_next {τ : Type v} [DecidableEq τ] (token : α → τ) (t : τ) {req : Option α}
    (hReq : req.isSome = true → q.reqReady maxElements = true) (hDrop : ctrl.drop = false)
    (hDone : ctrl.done = true → ctrl.long = false)
    (hRoom : ctrl.long = true → q.longQ.length < maxElements) :
    tokens token t (q.next maxElements ctrl req).baseQ + tokens token t (q.next maxElements ctrl req).longQ +
        (held token t (if ctrl.done then q.baseQ.head? else none) +
          held token t (if ctrl.longDone then q.longQ.head? else none)) =
      tokens token t q.baseQ + tokens token t q.longQ + held token t req := by
  have hBase : tokens token t (q.next maxElements ctrl req).baseQ +
      held token t (if baseReady ctrl then q.baseQ.head? else none) = tokens token t q.baseQ + held token t req := by
    refine FlushQueue.tokens_next _ _ _ _ token t rfl fun hSome => ?_
    simpa [queue, FlushQueue.enqReady, reqReady] using hReq hSome
  have hLong : tokens token t (q.next maxElements ctrl req).longQ +
      held token t (if ctrl.longDone then q.longQ.head? else none) =
        tokens token t q.longQ + held token t (q.longEnq ctrl) := by
    refine FlushQueue.tokens_next _ _ _ _ token t rfl fun hSome => ?_
    have hTaken : ctrl.long = true := by
      by_contra hNot
      simp [longEnq, hNot] at hSome
    rw [FlushQueue.enqReady, queue, Bool.false_and, Bool.or_false]
    exact decide_eq_true (hRoom hTaken)
  have hSplit : held token t (if baseReady ctrl then q.baseQ.head? else none) =
      held token t (if ctrl.done then q.baseQ.head? else none) + held token t (q.longEnq ctrl) := by
    rw [baseReady, longEnq, hDrop]
    cases hd : ctrl.done with
    | false => cases ctrl.long <;> simp
    | true => simp [hDone hd]
  omega

end DoubleLatencyQueue

/-- The counter has as many bits as an index into the receiver. -/
structure CreditQueueController (size : Nat) where
  cnt : BitVec (Nat.clog 2 size)
deriving DecidableEq

structure CreditTrans where
  inn : Bool
  dropped : Bool
  out : Bool

namespace CreditQueueController

variable {size : Nat} (c : CreditQueueController size) (trans : CreditTrans)

def reset (size : Nat) : CreditQueueController size := ⟨0⟩

def ready : Bool := decide (c.cnt.toInt < (size : Int) - 1)

/-- The three inputs are read as signed numbers of one bit, and so is what comes of them. -/
def diff : BitVec 1 := .ofBool trans.inn - (.ofBool trans.out + .ofBool trans.dropped)

def next : CreditQueueController size := ⟨c.cnt + (diff trans).signExtend _⟩

/-- A signed counter of that width never reaches the size, so the producer is never held back. -/
theorem ready_eq_true (h : 2 ≤ size) : c.ready = true := by
  obtain ⟨k, hk⟩ : ∃ k, Nat.clog 2 size = k + 1 := Nat.exists_eq_succ_of_ne_zero (Nat.clog_pos (by decide) h).ne'
  have hSize : 2 ^ k < size := by
    by_contra hLe
    have hClog := (Nat.clog_le_iff_le_pow (by decide)).mpr (Nat.le_of_not_lt hLe)
    omega
  have hBound : 2 * c.cnt.toInt < ((2 ^ Nat.clog 2 size : Nat) : Int) := by
    rw [Nat.cast_pow]
    exact BitVec.two_mul_toInt_lt
  have hPow : 2 ^ Nat.clog 2 size = 2 * 2 ^ k := by rw [hk, pow_succ, mul_comm]
  rw [ready, decide_eq_true_eq]
  omega

end CreditQueueController

end KnockoutKraken.Util
