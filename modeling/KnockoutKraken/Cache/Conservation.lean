import KnockoutKraken.Cache.BaseCache

/-!
# Requests taken at the ports

A flush is only taken when the bank takes it; the ready signals of the
pipeline and of the refill queue do not look at the bank at all. What
the ports hand over is what the bank takes in exactly when the bank can
take a request in every cycle in which one of these two offers one.
-/

namespace KnockoutKraken.Cache

open Library Util

namespace DataBank

variable {p : DatabankParams} {core : LRUCore p.wayWidth} {s : DataBank p core} {i : Input p}

/-- The first stage is free, or its request leaves: its word is there and both output queues have room. -/
def Accepting (s : DataBank p core) (i : Input p) : Prop :=
  s.s1FrontendRequestR = [] ∨ s.bankRamReply.isSome = true ∧
    s2Queue.enqReady s.s2MissRequestR i.missReady = true ∧
    s2Queue.enqReady s.s2WritebackRequestR i.writebackReady = true

instance : Decidable (s.Accepting i) :=
  inferInstanceAs (Decidable (_ ∨ _ ∧ _ ∧ _))

theorem pipelineStateReady0_iff : s.pipelineStateReady0 i = true ↔ s.Accepting i := by
  rw [pipelineStateReady0, Accepting]
  cases hList : s.s1FrontendRequestR with
  | nil => simp [FlushQueue.enqReady, s1Queue]
  | cons q rest =>
    have hS1 : s.s1.isSome = true := by rw [s1, hList]; rfl
    simp [FlushQueue.enqReady, s1Queue, pipelineStateReady1, hS1, and_assoc]

end DataBank

namespace BaseCache

variable {params : CacheParams} {core : LRUCore params.wayWidth} {c : BaseCache params core} {i : Input params}

/-- A request of the pipeline or of the refill queue comes when the bank can take it. -/
def Handled (c : BaseCache params core) (i : Input params) : Prop :=
  i.flushValid = false → i.stallReq = false → (c.refillRequest i).isSome = true ∨ i.pipelineValid = true →
    c.bank.Accepting (c.bankInput i)

theorem entered_eq : c.entered i = if !i.stallReq && c.arbiterValid i && c.bankReady i then some (c.arbiterBits i) else none :=
  rfl

theorem handshakes_of_flush (hFlush : i.flushValid = true) : c.handshakes i = (c.entered i).toList := by
  rw [entered_eq]
  cases hStall : i.stallReq <;> cases hReady : c.bankReady i <;>
    simp [handshakes, flushReady, refillReady, pipelineReady, arbiterValid, arbiterBits, hFlush, hStall, hReady]

theorem handshakes_of_stall (hFlush : i.flushValid = false) (hStall : i.stallReq = true) :
    c.handshakes i = (c.entered i).toList := by
  simp [entered_eq, handshakes, refillReady, pipelineReady, hFlush, hStall]

theorem handshakes_of_offer (hFlush : i.flushValid = false) (hStall : i.stallReq = false) :
    c.handshakes i = if c.arbiterValid i then [c.arbiterBits i] else [] := by
  cases hRefill : c.refillRequest i <;> cases hPipeline : i.pipelineValid <;>
    simp [handshakes, refillReady, pipelineReady, arbiterValid, arbiterBits, hFlush, hStall, hRefill, hPipeline]

theorem entered_of_offer (hStall : i.stallReq = false) :
    c.entered i = if c.arbiterValid i && c.bankReady i then some (c.arbiterBits i) else none := by
  simp [entered_eq, hStall]

/-- What the bank takes in was handed over by a port, and nothing else is lost than an unhandled offer. -/
theorem handshakes_eq_iff :
    (c.entered i).toList.length ≤ (c.handshakes i).length ∧ (c.handshakes i = (c.entered i).toList ↔ c.Handled i) := by
  cases hFlush : i.flushValid with
  | true =>
    rw [handshakes_of_flush hFlush]
    exact ⟨le_rfl, iff_of_true rfl fun hNot => by rw [hFlush] at hNot; cases hNot⟩
  | false =>
    cases hStall : i.stallReq with
    | true =>
      rw [handshakes_of_stall hFlush hStall]
      exact ⟨le_rfl, iff_of_true rfl fun _ hNot => by rw [hStall] at hNot; cases hNot⟩
    | false =>
      have hHandled : c.Handled i ↔ (c.arbiterValid i = true → c.bankReady i = true) := by
        rw [Handled, bankReady, DataBank.pipelineStateReady0_iff, arbiterValid, hFlush, Bool.false_or, Bool.or_eq_true]
        exact ⟨fun h => h rfl hStall, fun h _ _ => h⟩
      rw [handshakes_of_offer hFlush hStall, entered_of_offer hStall, hHandled]
      cases c.arbiterValid i <;> cases c.bankReady i <;> simp

theorem length_entered_le (c : BaseCache params core) (is : List (Input params)) :
    (machine.emitted Output.entered c is).length ≤ ((machine.trace c is).flatMap Output.handshakes).length := by
  induction is generalizing c with
  | nil => exact le_rfl
  | cons i is ih =>
    rw [Machine.emitted_cons, Machine.trace_cons, List.flatMap_cons, List.length_append, List.length_append]
    exact Nat.add_le_add handshakes_eq_iff.1 (ih _)

/-- Along any run the bank takes in the requests the ports hand over, each once and in order,
exactly when every request of the pipeline and the refill queue comes to a bank that can take it. -/
theorem handshakes_entered_iff (c : BaseCache params core) (is : List (Input params)) :
    (machine.trace c is).flatMap Output.handshakes = machine.emitted Output.entered c is ↔
      machine.Along Handled c is := by
  induction is generalizing c with
  | nil => exact iff_of_true rfl trivial
  | cons i is ih =>
    rw [Machine.emitted_cons, Machine.trace_cons, List.flatMap_cons, Machine.along_cons, ← ih]
    obtain ⟨hLength, hCycle⟩ := handshakes_eq_iff (c := c) (i := i)
    change c.handshakes i ++ _ = (c.entered i).toList ++ _ ↔ _
    constructor
    · intro hEq
      -- a request lost in this cycle would leave fewer requests to take in than were handed over
      have hRest := length_entered_le (machine.next c i) is
      have hTotal := congrArg List.length hEq
      rw [List.length_append, List.length_append] at hTotal
      obtain ⟨hHead, hTail⟩ := List.append_inj hEq (by omega)
      exact ⟨hCycle.mp hHead, hTail⟩
    · rintro ⟨hHandled, hTail⟩
      rw [hCycle.mpr hHandled, hTail]

section OneSet

/-- One set of two ways, two-byte blocks, room for four misses. -/
abbrev smallCache : CacheParams := ⟨0, 1, 2, 1, 4⟩

/-- A read offered while the memory port takes nothing. -/
def readOffer (addr : smallCache.PAddr) : Input smallCache := ⟨⟨addr, 0, 0⟩, true, 0, false, false, false, none⟩

/-- Four reads miss while the memory port is busy: the ports hand over all four, the bank takes in three. -/
theorem read_dropped :
    let c : BaseCache smallCache (PseudoTreeLRUCore 1) := .init 0
    let is := [readOffer 0, readOffer 2, readOffer 4, readOffer 6]
    (machine.trace c is).flatMap Output.handshakes ≠ machine.emitted Output.entered c is := by
  intro c is hEq
  have hLength := congrArg List.length hEq
  exact absurd hLength (by decide +kernel)

end OneSet

end BaseCache

end KnockoutKraken.Cache
