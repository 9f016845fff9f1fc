import KnockoutKraken.Library.Machine
import KnockoutKraken.Util.FlushQueue

/-!
# The diverter

Every output is offered the oldest item of a queue until it has taken it,
and the item leaves the queue when the last output takes it. The register
of an output says that the output took the item in the cycle before; it
is cleared in the next cycle, also when another output has not taken the
item by then.
-/

namespace KnockoutKraken.Util

open Library

universe u

/-- With a single output the input is wired through; there is no queue then. -/
structure DiverterParams where
  wayNumber : Nat
  fifoDepth : Nat
  two_le : 2 ≤ wayNumber

structure Diverter (p : DiverterParams) (α : Type u) where
  latch : List α
  pushedR : Fin p.wayNumber → Bool

namespace Diverter

variable {p : DiverterParams} {α : Type u}

structure Input (p : DiverterParams) (α : Type u) where
  i : Option α
  oReady : Fin p.wayNumber → Bool

structure Output (p : DiverterParams) (α : Type u) where
  accepted : Option α
  delivered : Fin p.wayNumber → Option α
  released : Option α

def queue (p : DiverterParams) : FlushQueue := ⟨p.fifoDepth, decide (p.fifoDepth = 0), decide (p.fifoDepth = 0)⟩

def reset : Diverter p α := ⟨[], fun _ => false⟩

variable (d : Diverter p α) (inp : Input p α)

def shown : Option α := (queue p).deqBits d.latch inp.i

def oValid (j : Fin p.wayNumber) : Bool := if d.pushedR j then false else (d.shown inp).isSome

def pushedB (j : Fin p.wayNumber) : Bool := d.oValid inp j && inp.oReady j

def ack : Bool := decide (∀ j, (d.pushedR j || d.pushedB inp j) = true)

def iReady : Bool := (queue p).enqReady d.latch (d.ack inp)

def next : Diverter p α where
  latch := (queue p).next d.latch inp.i (d.ack inp)
  pushedR j := if d.ack inp then false else d.pushedB inp j

def accepted : Option α := if d.iReady inp then inp.i else none

def delivered (j : Fin p.wayNumber) : Option α := if d.pushedB inp j then d.shown inp else none

def released : Option α := if d.ack inp then d.shown inp else none

def output : Output p α := ⟨d.accepted inp, d.delivered inp, d.released inp⟩

theorem latch_next : (d.released inp).toList ++ (d.next inp).latch = d.latch ++ (d.accepted inp).toList := by
  rcases Nat.eq_zero_or_pos p.fifoDepth with hZero | hPos
  · have hQueue : queue p = ⟨0, true, true⟩ := by rw [queue, hZero]; rfl
    rw [released, shown, next, accepted, iReady, hQueue]
    cases d.latch <;> cases inp.i <;> cases d.ack inp <;>
      simp [FlushQueue.deqBits, FlushQueue.next, FlushQueue.doEnq, FlushQueue.doDeq, FlushQueue.enqReady]
  · exact FlushQueue.ports_conserve hPos inp.i (d.ack inp)

theorem shown_of_places (h : p.fifoDepth ≠ 0) : d.shown inp = d.latch.head? := by
  rw [shown, queue, decide_eq_false h]
  cases d.latch <;> rfl

end Diverter

/-- The diverter and the item that its queue showed in the last cycle and kept. -/
structure WatchedDiverter (p : DiverterParams) (α : Type u) where
  diverter : Diverter p α
  kept : Option α

namespace WatchedDiverter

open Diverter

variable {p : DiverterParams} {α : Type u} (s : WatchedDiverter p α) (inp : Input p α)

def reset : WatchedDiverter p α := ⟨.reset, none⟩

def next : WatchedDiverter p α where
  diverter := s.diverter.next inp
  kept := if s.diverter.ack inp then none else s.diverter.shown inp

def machine (p : DiverterParams) (α : Type u) : Machine (WatchedDiverter p α) (Input p α) (Output p α) :=
  ⟨next, fun s inp => s.diverter.output inp⟩

/-- The item that the outputs take. A queue without places shows what its producer offers. -/
def waiting : Option α := if p.fifoDepth = 0 then s.kept else s.diverter.latch.head?

/-- The outputs that have not taken an item by the cycle after its first taking are ready in that cycle. -/
def Prompt : Prop := (∃ j, s.diverter.pushedR j = true) → ∀ k, s.diverter.pushedR k = false → inp.oReady k = true

/-- The producer of a queue without places offers an item until it is taken. -/
def Keeps : Prop := p.fifoDepth = 0 → ∀ item ∈ s.kept, inp.i = some item

instance : Decidable (s.Prompt inp) := inferInstanceAs (Decidable (_ → _))

instance [DecidableEq α] : Decidable (s.Keeps inp) := inferInstanceAs (Decidable (_ → ∀ item ∈ s.kept, inp.i = some item))

/-- The item that an output has taken and that is still there. -/
def taken (j : Fin p.wayNumber) : Option α := if s.diverter.pushedR j then s.waiting else none

/-- An output that took the item in the cycle before took the one that still waits. -/
structure Inv : Prop where
  places : p.fifoDepth = 0 → s.diverter.latch = []
  waits : ∀ j, s.diverter.pushedR j = true → s.waiting.isSome = true

variable {s} {inp} {j : Fin p.wayNumber}

section Step

theorem shown_of_waiting (hInv : s.Inv) (h : s.Keeps inp) (hSome : s.waiting.isSome = true) :
    s.diverter.shown inp = s.waiting := by
  by_cases hZero : p.fifoDepth = 0
  · rw [waiting, if_pos hZero] at hSome ⊢
    obtain ⟨item, hItem⟩ := Option.isSome_iff_exists.mp hSome
    rw [shown, hInv.places hZero, FlushQueue.deqBits, queue, hItem, h hZero item hItem]
    exact if_pos (decide_eq_true hZero)
  · rw [waiting, if_neg hZero]
    exact s.diverter.shown_of_places inp hZero

theorem shown_of_pushedB (h : s.diverter.pushedB inp j = true) : (s.diverter.shown inp).isSome = true := by
  rw [pushedB, oValid, Bool.and_eq_true] at h
  cases hPushed : s.diverter.pushedR j with
  | true => simp [hPushed] at h
  | false => simpa [hPushed] using h.1

theorem waiting_next (hAck : s.diverter.ack inp = false) (hSome : (s.diverter.shown inp).isSome = true) :
    (s.next inp).waiting = s.diverter.shown inp := by
  by_cases hZero : p.fifoDepth = 0
  · rw [waiting, if_pos hZero, next, hAck]
    rfl
  · have hLatch := latch_next s.diverter inp
    have hShown := s.diverter.shown_of_places inp hZero
    rw [released, hAck, if_neg Bool.false_ne_true, Option.toList_none, List.nil_append] at hLatch
    rw [waiting, if_neg hZero, next, hLatch, hShown]
    rw [hShown] at hSome
    obtain ⟨item, hItem⟩ := Option.isSome_iff_exists.mp hSome
    rw [List.head?_append, hItem]
    rfl

theorem Inv.next (hInv : s.Inv) : (s.next inp).Inv where
  places hZero := by
    have hLatch := latch_next s.diverter inp
    have hQueue : queue p = ⟨0, true, true⟩ := by rw [queue, hZero]; rfl
    rw [released, accepted, iReady, shown, hInv.places hZero, hQueue] at hLatch
    change (s.diverter.next inp).latch = []
    cases hAck : s.diverter.ack inp <;> cases hItem : inp.i <;>
      simpa [hAck, hItem, FlushQueue.enqReady, FlushQueue.deqBits] using hLatch
  waits j hj := by
    change (if s.diverter.ack inp then false else s.diverter.pushedB inp j) = true at hj
    cases hAck : s.diverter.ack inp with
    | true => simp [hAck] at hj
    | false =>
      have hPushed : s.diverter.pushedB inp j = true := by simpa [hAck] using hj
      rw [waiting_next hAck (shown_of_pushedB hPushed)]
      exact shown_of_pushedB hPushed

/-- While every item leaves promptly, an output is offered the item exactly when it has not taken it. -/
theorem oValid_iff (hInv : s.Inv) : s.diverter.oValid inp j = true ↔
    (s.diverter.shown inp).isSome = true ∧ s.taken j = none := by
  rw [oValid, taken]
  cases hPushed : s.diverter.pushedR j with
  | true =>
    have hSome := hInv.waits j hPushed
    refine iff_of_false Bool.false_ne_true fun h => ?_
    rw [if_pos rfl] at h
    rw [h.2] at hSome
    cases hSome
  | false => simp

theorem ack_of_pushed (hInv : s.Inv) (h : s.Prompt inp) (hKeeps : s.Keeps inp) (hj : s.diverter.pushedR j = true) :
    s.diverter.ack inp = true := by
  refine decide_eq_true fun k => ?_
  cases hk : s.diverter.pushedR k with
  | true => rfl
  | false =>
    have hSome := hInv.waits j hj
    rw [← shown_of_waiting hInv hKeeps hSome] at hSome
    simp [pushedB, oValid, hk, h ⟨j, hj⟩ k hk, hSome]

/-- What an output takes is what leaves, but for the item that it takes first. -/
theorem taken_next (hInv : s.Inv) (h : s.Prompt inp) (hKeeps : s.Keeps inp) (j : Fin p.wayNumber) :
    (s.diverter.released inp).toList ++ ((s.next inp).taken j).toList =
      (s.taken j).toList ++ (s.diverter.delivered inp j).toList := by
  have hNext : (s.next inp).diverter.pushedR j = if s.diverter.ack inp then false else s.diverter.pushedB inp j := rfl
  cases hAck : s.diverter.ack inp with
  | true =>
    have hTaken : (s.next inp).taken j = none := by rw [taken, hNext, hAck]; rfl
    rw [hTaken, released, hAck, if_pos rfl, Option.toList_none, List.append_nil]
    cases hPushed : s.diverter.pushedR j with
    | true =>
      have hOff : s.diverter.pushedB inp j = false := by simp [pushedB, oValid, hPushed]
      rw [taken, hPushed, if_pos rfl, delivered, hOff, shown_of_waiting hInv hKeeps (hInv.waits j hPushed)]
      exact (List.append_nil _).symm
    | false =>
      have hTakes : s.diverter.pushedB inp j = true := by simpa [hPushed] using of_decide_eq_true hAck j
      rw [taken, hPushed, delivered, hTakes]
      rfl
  | false =>
    have hPushed : s.diverter.pushedR j = false := by
      refine Bool.eq_false_iff.mpr fun hPushed => ?_
      rw [ack_of_pushed hInv h hKeeps hPushed] at hAck
      cases hAck
    rw [released, hAck, taken, hNext, hAck, taken, hPushed, delivered]
    cases hTakes : s.diverter.pushedB inp j with
    | true => simp [waiting_next hAck (shown_of_pushedB hTakes)]
    | false => simp

end Step

section Run

theorem inv_reset : (reset : WatchedDiverter p α).Inv := ⟨fun _ => rfl, fun _ hj => absurd hj Bool.false_ne_true⟩

def Rule (s : WatchedDiverter p α) (inp : Input p α) : Prop := s.Prompt inp ∧ s.Keeps inp

instance [DecidableEq α] (s : WatchedDiverter p α) (inp : Input p α) : Decidable (s.Rule inp) := inferInstanceAs (Decidable (_ ∧ _))

variable {is : List (Input p α)}

theorem inv_run (is : List (Input p α)) : ((machine p α).run reset is).Inv :=
  have hAlong : (machine p α).Along (fun _ _ => True) reset is := Machine.along_of_forall (fun _ _ => trivial) _ is
  hAlong.invariant inv_reset fun _ _ hInv _ => hInv.next

theorem taken_run (h : (machine p α).Along Rule reset is) (j : Fin p.wayNumber) :
    (machine p α).emitted (fun o => o.delivered j) reset is =
      (machine p α).emitted Output.released reset is ++ (((machine p α).run reset is).taken j).toList := by
  symm
  refine h.conserves (fun s => (s.taken j).toList) inv_reset (fun _ _ hInv _ => hInv.next) ?_
  intro s inp hInv hRule
  exact taken_next hInv hRule.1 hRule.2 j

end Run

/-- Every output has taken the items that left the queue, in the order they came in, and at most the one
that waits; and it is offered an item exactly when it has not taken it. -/
structure ExactlyOnce (is : List (Input p α)) : Prop where
  released : (machine p α).emitted Output.released reset is ++ ((machine p α).run reset is).diverter.latch =
    (machine p α).emitted Output.accepted reset is
  delivered : ∀ j, ∃ taken, (machine p α).emitted (fun o => o.delivered j) reset is =
      (machine p α).emitted Output.released reset is ++ taken ∧
    (taken = [] ∨ ((machine p α).run reset is).waiting.toList = taken)
  offered : ∀ js inp ks, is = js ++ inp :: ks → ∀ j, ((machine p α).run reset js).diverter.oValid inp j = true ↔
    (((machine p α).run reset js).diverter.shown inp).isSome = true ∧
      (machine p α).emitted (fun o => o.delivered j) reset js = (machine p α).emitted Output.released reset js

theorem exactlyOnce_of_prompt {is : List (Input p α)} (h : (machine p α).Along Rule reset is) : ExactlyOnce is where
  released := Machine.emitted_conserves (fun s => s.diverter.latch) (fun s inp => latch_next s.diverter inp) reset is
  delivered j := by
    refine ⟨_, taken_run h j, ?_⟩
    rw [taken]
    split
    · exact .inr rfl
    · exact .inl rfl
  offered := by
    rintro js inp ks rfl j
    rw [oValid_iff (inv_run js), taken_run ((Machine.along_append _ _ _).mp h).1 j]
    simp

section Runs

abbrev pair (fifoDepth : Nat) : DiverterParams := ⟨2, fifoDepth, Nat.le_refl 2⟩

def cycle {fifoDepth : Nat} (i : Option Nat) (ready0 ready1 : Bool) : Input (pair fifoDepth) Nat :=
  ⟨i, fun j => if j = 0 then ready0 else ready1⟩

/-- The outputs take three items in turn and together. -/
def inTurn : List (Input (pair 1) Nat) :=
  [cycle (some 7) true true, cycle (some 8) true false, cycle (some 8) false true, cycle (some 8) false false,
    cycle (some 9) false true, cycle (some 9) true true, cycle (some 9) true true, cycle none true true]

/-- Without a place the producer offers each item until both outputs have taken it. -/
def wired : List (Input (pair 0) Nat) :=
  [cycle (some 7) true false, cycle (some 7) false true, cycle (some 8) false false, cycle (some 8) true true]

theorem exactlyOnce_pair : (ExactlyOnce inTurn ∧ (machine (pair 1) Nat).emitted (fun o => o.delivered 0) reset inTurn = [7, 8, 9]) ∧
    ExactlyOnce wired ∧ (machine (pair 0) Nat).emitted (fun o => o.delivered 1) reset wired = [7, 8] :=
  ⟨⟨exactlyOnce_of_prompt (by decide), by decide⟩, exactlyOnce_of_prompt (by decide), by decide⟩

/-- The first output takes an item twice while the second one waits for two cycles. -/
theorem delivered_twice : ¬ ∀ (p : DiverterParams) (is : List (Input p Nat)), ExactlyOnce is := by
  intro h
  obtain ⟨taken, hTaken, hOne⟩ :=
    (h (pair 1) [cycle (some 7) false false, cycle none true false, cycle none false false, cycle none true false]).delivered 0
  have hTwice : [7, 7] = taken := hTaken
  have hHead : taken = [] ∨ [7] = taken := hOne
  subst hTwice
  revert hHead
  decide

end Runs

end WatchedDiverter

end KnockoutKraken.Util
