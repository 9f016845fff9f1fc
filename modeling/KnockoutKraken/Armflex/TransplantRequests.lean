import KnockoutKraken.Antmicro.CSR
import KnockoutKraken.Armflex.Transplant
import KnockoutKraken.Library.Machine

/-!
# Start and stop requests of the host

The host asks through three registers: it sets start and stop bits, which
the transplant unit clears when it takes a thread in and when it has put
one out, and it clears the bits of the threads reported out. A request is
followed from the write of its bit to the cycle that serves it.
-/

namespace KnockoutKraken.Armflex

open Library Antmicro

def axiDataW : Nat := 32

structure TransplantCSRs (thidW : Nat) where
  trans2host : BitVec axiDataW
  pendingHostTrans : BitVec axiDataW
  host2transStopCPU : BitVec axiDataW
  unit : TransplantControl thidW

namespace TransplantCSRs

open TransplantState TransplantDir

variable {thidW : Nat}

structure Input (thidW : Nat) where
  bus : Option (CSRBusWrite axiDataW)
  done : Option (BitVec thidW)

structure Output (thidW : Nat) where
  clear : Option (BitVec thidW)
  start : Option (BitVec thidW)
  hostDone : Option (BitVec thidW)

def reset (thidW : Nat) : TransplantCSRs thidW := ⟨0, 0, 0, .reset thidW⟩

namespace Input

variable (i : Input thidW)

def freesDone (t : Nat) : Bool := writesBit (CSRBusWrite.csr i.bus 0) t

def startWrite : Option (BitVec axiDataW) := CSRBusWrite.csr i.bus 1

def requestsStart (t : Nat) : Bool := writesBit i.startWrite t

def stopWrite : Option (BitVec axiDataW) := CSRBusWrite.csr i.bus 2

def requestsStop (t : Nat) : Bool := writesBit i.stopWrite t

end Input

variable (s : TransplantCSRs thidW) (i : Input thidW)

def unitInput : TransplantControl.Input thidW := ⟨s.pendingHostTrans.setWidth _, i.done, none, none⟩

def output : Output thidW := ⟨s.unit.clear (s.unitInput i), s.unit.start, s.unit.hostDone⟩

def next : TransplantCSRs thidW where
  trans2host := SetCSR.next s.trans2host (bitOf _ (s.output i).hostDone) (CSRBusWrite.csr i.bus 0)
  pendingHostTrans := ClearCSR.next s.pendingHostTrans (bitOf _ (s.output i).clear) i.startWrite
  host2transStopCPU := ClearCSR.next s.host2transStopCPU (bitOf _ (s.output i).hostDone) i.stopWrite
  unit := s.unit.next (s.unitInput i)

def machine (thidW : Nat) : Machine (TransplantCSRs thidW) (Input thidW) (Output thidW) := ⟨next, output⟩

def pends (t : BitVec thidW) : Bool := s.pendingHostTrans.getLsbD t.toNat

def stops (t : BitVec thidW) : Bool := s.host2transStopCPU.getLsbD t.toNat

def entering (t : BitVec thidW) : Bool := decide (s.unit.state = sTrans ∧ s.unit.stateDir = bram2cpu ∧ s.unit.thread = t)

/-- What the registers should be after a cycle: a bit is set by a write, and cleared by its own pulse only. -/
structure Exact : Prop where
  pending : ∀ t : BitVec thidW, t.toNat < axiDataW → (s.next i).pends t =
    (i.requestsStart t.toNat || s.pends t && !decide ((s.output i).clear = some t))
  stop : ∀ t : BitVec thidW, t.toNat < axiDataW → (s.next i).stops t =
    (i.requestsStop t.toNat || s.stops t && !decide ((s.output i).hostDone = some t))
  done : ∀ t : BitVec thidW, t.toNat < axiDataW → (s.next i).trans2host.getLsbD t.toNat =
    (decide ((s.output i).hostDone = some t) || s.trans2host.getLsbD t.toNat && !i.freesDone t.toNat)

/-- No clear pulse meets a write that leaves its bit out. -/
structure NoClash : Prop where
  start : i.startWrite.isSome = true → ∀ t, (s.output i).clear = some t → i.requestsStart t.toNat = true
  stop : i.stopWrite.isSome = true → ∀ t, (s.output i).hostDone = some t → s.stops t = true →
    i.requestsStop t.toNat = true

/-- The host starts a thread only when its last start has been taken. -/
structure HostWaits : Prop extends NoClash s i where
  fresh : ∀ t : BitVec thidW, i.requestsStart t.toNat = true → s.pends t = true → (s.output i).clear = some t

instance : Decidable (s.HostWaits i) :=
  decidable_of_iff ((i.startWrite.isSome = true → ∀ t, (s.output i).clear = some t → i.requestsStart t.toNat = true) ∧
    (i.stopWrite.isSome = true → ∀ t, (s.output i).hostDone = some t → s.stops t = true → i.requestsStop t.toNat = true) ∧
    ∀ t : BitVec thidW, i.requestsStart t.toNat = true → s.pends t = true → (s.output i).clear = some t)
    ⟨fun ⟨hStart, hStop, hFresh⟩ => ⟨⟨hStart, hStop⟩, hFresh⟩, fun h => ⟨h.start, h.stop, h.fresh⟩⟩

variable {s : TransplantCSRs thidW} {i : Input thidW}

theorem pending_of_takesHost (h : s.unit.takesHost (s.unitInput i) = true) :
    s.pends (s.unit.threadNext (s.unitInput i)) = true := by
  have hBit := TransplantControl.getLsbD_threadNext h
  rw [unitInput, BitVec.getLsbD_setWidth, Bool.and_eq_true] at hBit
  exact hBit.2

theorem clear_eq_some {t : BitVec thidW} (hClear : (s.output i).clear = some t) :
    s.unit.takesHost (s.unitInput i) = true ∧ s.unit.threadNext (s.unitInput i) = t := by
  rw [output, TransplantControl.clear] at hClear
  split at hClear
  · next h => exact ⟨h, Option.some.inj hClear⟩
  · cases hClear

theorem pends_of_clear {t : BitVec thidW} (hClear : (s.output i).clear = some t) : s.pends t = true := by
  obtain ⟨hTakes, rfl⟩ := clear_eq_some hClear
  exact pending_of_takesHost hTakes

theorem lt_of_pends {t : BitVec thidW} (h : s.pends t = true) : t.toNat < axiDataW := BitVec.lt_of_getLsbD h

theorem lt_of_requestsStart {t : Nat} (h : i.requestsStart t = true) : t < axiDataW := by
  rw [Input.requestsStart, writesBit, Option.any_eq_true] at h
  obtain ⟨word, -, hBit⟩ := h
  exact BitVec.lt_of_getLsbD hBit

theorem done_next (t : BitVec thidW) (ht : t.toNat < axiDataW) : (s.next i).trans2host.getLsbD t.toNat =
    (decide ((s.output i).hostDone = some t) || s.trans2host.getLsbD t.toNat && !i.freesDone t.toNat) := by
  refine (SetCSR.getLsbD_next s.trans2host (bitOf _ (s.output i).hostDone) (CSRBusWrite.csr i.bus 0) ht).trans ?_
  rw [getLsbD_bitOf, decide_eq_true ht, Bool.true_and]
  rfl

/-- The registers are exact in a cycle if and only if no clear pulse clashes with a write. -/
theorem exact_iff_noClash : s.Exact i ↔ s.NoClash i := by
  have hPending : ∀ t : BitVec thidW, t.toNat < axiDataW → ((s.next i).pends t =
      (i.requestsStart t.toNat || s.pends t && !decide ((s.output i).clear = some t)) ↔
      (i.startWrite.isSome = true → decide ((s.output i).clear = some t) = true → s.pends t = true →
        i.requestsStart t.toNat = true)) := fun t ht => by
    have hIff := ClearCSR.exact_iff s.pendingHostTrans (bitOf _ (s.output i).clear) i.startWrite ht
    rwa [getLsbD_bitOf, decide_eq_true ht, Bool.true_and] at hIff
  have hStop : ∀ t : BitVec thidW, t.toNat < axiDataW → ((s.next i).stops t =
      (i.requestsStop t.toNat || s.stops t && !decide ((s.output i).hostDone = some t)) ↔
      (i.stopWrite.isSome = true → decide ((s.output i).hostDone = some t) = true → s.stops t = true →
        i.requestsStop t.toNat = true)) := fun t ht => by
    have hIff := ClearCSR.exact_iff s.host2transStopCPU (bitOf _ (s.output i).hostDone) i.stopWrite ht
    rwa [getLsbD_bitOf, decide_eq_true ht, Bool.true_and] at hIff
  constructor
  · intro h
    refine ⟨fun hWrite t hClear => ?_, fun hWrite t hDone hStops => ?_⟩
    · have hPends := pends_of_clear hClear
      have ht := lt_of_pends hPends
      exact (hPending t ht).mp (h.pending t ht) hWrite (decide_eq_true hClear) hPends
    · have ht : t.toNat < axiDataW := BitVec.lt_of_getLsbD hStops
      exact (hStop t ht).mp (h.stop t ht) hWrite (decide_eq_true hDone) hStops
  · intro h
    refine ⟨fun t ht => ?_, fun t ht => ?_, done_next⟩
    · exact (hPending t ht).mpr fun hWrite hClear _ => h.start hWrite t (of_decide_eq_true hClear)
    · exact (hStop t ht).mpr fun hWrite hDone hStops => h.stop hWrite t (of_decide_eq_true hDone) hStops

section Conservation

variable (t : BitVec thidW)

theorem entering_iff : s.entering t = true ↔
    s.unit.state = sTrans ∧ s.unit.stateDir = bram2cpu ∧ s.unit.thread = t := decide_eq_true_iff

theorem start_iff : (s.output i).start = some t ↔ s.entering t = true ∧ s.unit.finishes = true := by
  rw [entering_iff, output, TransplantControl.start]
  cases hEnd : s.unit.finishes with
  | false => simp
  | true =>
    have hTrans := (decide_eq_true_iff.mp hEnd).1
    by_cases hDir : s.unit.stateDir = bram2cpu <;> simp [hDir, hTrans]

theorem not_entering_of_clear (hClear : (s.output i).clear = some t) : s.entering t = false := by
  have hIdle := (TransplantControl.takesHost_iff.mp (clear_eq_some hClear).1).1
  simp [entering, hIdle]

theorem entering_next : (s.next i).entering t =
    (decide ((s.output i).clear = some t) || s.entering t && !decide ((s.output i).start = some t)) := by
  have hStart := start_iff (s := s) (i := i) t
  cases hState : s.unit.state with
  | sIdle =>
    have hNot : s.entering t = false := by simp [entering, hState]
    rw [hNot, Bool.false_and, Bool.or_false, entering, Bool.eq_iff_iff, decide_eq_true_iff, decide_eq_true_iff]
    simp only [next, output, TransplantControl.next, TransplantControl.clear, hState]
    cases hHost : s.unit.takesHost (s.unitInput i) with
    | true => simp
    | false => cases hCpu : s.unit.takesCpu (s.unitInput i) <;> simp
  | sTrans =>
    obtain ⟨hHost, hCpu⟩ := TransplantControl.takes_of_trans (i := s.unitInput i) hState
    have hClear : (s.output i).clear = none := by simp [output, TransplantControl.clear, hHost]
    rw [hClear, decide_eq_false (by simp), Bool.false_or, Bool.eq_iff_iff, entering_iff, Bool.and_eq_true,
      Bool.not_eq_true', decide_eq_false_iff_not, hStart, entering_iff]
    simp only [next, TransplantControl.next, TransplantControl.threadNext, hState, hHost, hCpu]
    cases s.unit.finishes <;> simp

/-- What a start bit and a copy-in under way still owe the host. -/
def owed (s : TransplantCSRs thidW) : Nat := (s.pends t).toNat + (s.entering t).toNat

theorem owed_next (hRule : s.HostWaits i) :
    (i.requestsStart t.toNat).toNat + s.owed t = (decide ((s.output i).start = some t)).toNat + (s.next i).owed t := by
  have hPends : (i.requestsStart t.toNat).toNat + (s.pends t).toNat =
      (decide ((s.output i).clear = some t)).toNat + ((s.next i).pends t).toNat := by
    by_cases ht : t.toNat < axiDataW
    · rw [(exact_iff_noClash.mpr hRule.toNoClash).pending t ht]
      have hFresh := hRule.fresh t
      have hPulse : (s.output i).clear = some t → s.pends t = true := pends_of_clear
      cases hReq : i.requestsStart t.toNat <;> cases hPend : s.pends t <;>
        by_cases hClear : (s.output i).clear = some t <;> simp_all
    · have hReq : i.requestsStart t.toNat = false := Bool.eq_false_iff.mpr fun h => ht (lt_of_requestsStart h)
      have hNone : ∀ s : TransplantCSRs thidW, s.pends t = false := fun s =>
        Bool.eq_false_iff.mpr fun h => ht (lt_of_pends h)
      have hClear : (s.output i).clear ≠ some t := fun h => ht (lt_of_pends (pends_of_clear h))
      simp [hReq, hNone, hClear]
  have hEnters : (decide ((s.output i).clear = some t)).toNat + (s.entering t).toNat =
      (decide ((s.output i).start = some t)).toNat + ((s.next i).entering t).toNat := by
    rw [entering_next]
    have hIdle := not_entering_of_clear (s := s) (i := i) t
    have hBusy : (s.output i).start = some t → s.entering t = true := fun h => ((start_iff t).mp h).1
    by_cases hClear : (s.output i).clear = some t <;> by_cases hStart : (s.output i).start = some t <;>
      cases hEnter : s.entering t <;> simp_all
  rw [owed, owed]
  omega

def requested (is : List (Input thidW)) : Nat := is.countP fun i => i.requestsStart t.toNat

def started (s : TransplantCSRs thidW) (is : List (Input thidW)) : List (BitVec thidW) :=
  (machine thidW).emitted Output.start s is

theorem requested_add_owed {is : List (Input thidW)} (h : (machine thidW).Along HostWaits s is) :
    requested t is + s.owed t = (started s is).count t + ((machine thidW).run s is).owed t := by
  induction is generalizing s with
  | nil => rfl
  | cons i is ih =>
    have hStep := owed_next t h.1
    have hRest := ih h.2
    have hOutput : ((machine thidW).output s i).start.toList.count t = (decide ((s.output i).start = some t)).toNat := by
      change (s.output i).start.toList.count t = _
      cases (s.output i).start with
      | none => rfl
      | some t' => by_cases hEq : t' = t <;> simp [hEq]
    have hHead : requested t (i :: is) = requested t is + (i.requestsStart t.toNat).toNat := by
      rw [requested, List.countP_cons, requested]
      cases i.requestsStart t.toNat <;> rfl
    rw [hHead, started, Machine.emitted_cons, List.count_append, hOutput, Machine.run_cons]
    change _ + s.owed t = _ + (started (s.next i) is).count t + ((machine thidW).run (s.next i) is).owed t
    change requested t is + (s.next i).owed t = (started (s.next i) is).count t + ((machine thidW).run (s.next i) is).owed t at hRest
    omega

end Conservation

section Progress

variable (t : BitVec thidW)

/-- How long the thread has to wait at most when no start bit is written before it is in. -/
def cyclesLeft (s : TransplantCSRs thidW) : Nat :=
  if s.entering t then s.unit.remaining else 37 * (upTo s.pendingHostTrans t.toNat).card + s.unit.remaining

def Input.startsUpTo (i : Input thidW) : Nat := (upTo (i.startWrite.getD 0) t.toNat).card

theorem ahead_next : (upTo (s.next i).pendingHostTrans t.toNat).card ≤
    (upTo s.pendingHostTrans t.toNat).card + i.startsUpTo t := by
  have hReg : (s.next i).pendingHostTrans = ClearCSR.next s.pendingHostTrans (bitOf _ (s.output i).clear) i.startWrite := rfl
  rw [hReg, Input.startsUpTo]
  cases i.startWrite with
  | none =>
    rw [ClearCSR.next]
    refine Nat.le_add_right_of_le (Finset.card_le_card fun k hk => ?_)
    rw [mem_upTo, BitVec.getLsbD_and, Bool.and_eq_true] at hk
    exact mem_upTo.mpr ⟨hk.1, hk.2.1⟩
  | some dataOut => exact card_upTo_or s.pendingHostTrans dataOut t.toNat

theorem ahead_next_of_clear (hRule : s.NoClash i) {j : BitVec thidW} (hClear : (s.output i).clear = some j)
    (hj : j.toNat ≤ t.toNat) : (upTo (s.next i).pendingHostTrans t.toNat).card + 1 ≤
      (upTo s.pendingHostTrans t.toNat).card + i.startsUpTo t := by
  have hReg : (s.next i).pendingHostTrans = ClearCSR.next s.pendingHostTrans (bitOf _ (s.output i).clear) i.startWrite := rfl
  have hPends := pends_of_clear hClear
  have hStart : i.startWrite.isSome = true → writesBit i.startWrite j.toNat = true := fun h => hRule.start h j hClear
  rw [hReg, Input.startsUpTo]
  cases hWrite : i.startWrite with
  | none =>
    rw [ClearCSR.next]
    refine Nat.le_add_right_of_le (card_upTo_clear hj hPends ?_ fun k hk => ?_)
    · rw [BitVec.getLsbD_and, BitVec.getLsbD_not, getLsbD_bitOf, hClear, decide_eq_true (lt_of_pends hPends)]
      simp
    · rw [BitVec.getLsbD_and, Bool.and_eq_true] at hk
      exact hk.1
  | some dataOut =>
    rw [hWrite] at hStart
    exact card_upTo_or_of_both hj hPends (hStart rfl)

theorem pends_next (hPends : s.pends t = true) (hClear : (s.output i).clear ≠ some t) : (s.next i).pends t = true := by
  have ht := lt_of_pends hPends
  refine (ClearCSR.getLsbD_next s.pendingHostTrans (bitOf _ (s.output i).clear) i.startWrite ht).trans ?_
  have hBit : s.pendingHostTrans.getLsbD t.toNat = true := hPends
  rw [getLsbD_bitOf, decide_eq_false hClear, hBit]
  simp

theorem cyclesLeft_next (hCount : s.unit.Counting) (hRule : s.NoClash i) (hWaits : s.pends t = true ∨ s.entering t = true)
    (hStart : (s.output i).start ≠ some t) :
    ((s.next i).pends t = true ∨ (s.next i).entering t = true) ∧
      (s.next i).cyclesLeft t + 1 ≤ s.cyclesLeft t + 37 * i.startsUpTo t := by
  have hEnters := entering_next (s := s) (i := i) t
  have hAhead := ahead_next (s := s) (i := i) t
  have hUnit : (s.next i).unit = s.unit.next (s.unitInput i) := rfl
  cases hState : s.unit.state with
  | sTrans =>
    have hRemaining := hCount.remaining_next (s.unitInput i) hState
    obtain ⟨hHost, -⟩ := TransplantControl.takes_of_trans (i := s.unitInput i) hState
    have hClear : (s.output i).clear = none := by simp [output, TransplantControl.clear, hHost]
    rw [hClear, decide_eq_false (by simp), Bool.false_or, decide_eq_false hStart, Bool.not_false, Bool.and_true] at hEnters
    refine ⟨hWaits.imp (fun h => pends_next t h (by simp [hClear])) fun h => hEnters.trans h, ?_⟩
    rw [cyclesLeft, cyclesLeft, hEnters, hUnit]
    split <;> omega
  | sIdle =>
    have hNot : s.entering t = false := by simp [entering, hState]
    have hPends : s.pends t = true := hWaits.resolve_right (by simp [hNot])
    have hBit : (s.unitInput i).pending.getLsbD t.toNat = true := by
      rw [unitInput, BitVec.getLsbD_setWidth, decide_eq_true t.isLt]
      exact hPends
    have hTakes : s.unit.takesHost (s.unitInput i) = true :=
      TransplantControl.takesHost_iff.mpr ⟨hState, ne_zero_of_getLsbD hBit⟩
    have hClear : (s.output i).clear = some (s.unit.threadNext (s.unitInput i)) := by
      simp [output, TransplantControl.clear, hTakes]
    have hFewer := ahead_next_of_clear t hRule hClear (TransplantControl.threadNext_le hTakes hBit)
    have hRemaining := TransplantControl.remaining_of_takes (i := s.unitInput i) (.inl hTakes)
    rw [hNot, Bool.false_and, Bool.or_false] at hEnters
    refine ⟨?_, ?_⟩
    · by_cases hMine : (s.output i).clear = some t
      · exact .inr (hEnters.trans (decide_eq_true hMine))
      · exact .inl (pends_next t hPends hMine)
    · rw [cyclesLeft, cyclesLeft, hNot, hUnit, hRemaining]
      split <;> simp only [Bool.false_eq_true, if_false] <;> omega

def startsUpTo (is : List (Input thidW)) : Nat := (is.map fun i => i.startsUpTo t).sum

/-- The thread is in before the cycles it has to wait are over, however the host starts others meanwhile. -/
theorem started_of_cyclesLeft {is : List (Input thidW)} (h : (machine thidW).Along NoClash s is)
    (hCount : s.unit.Counting) (hWaits : s.pends t = true ∨ s.entering t = true)
    (hLong : s.cyclesLeft t + 37 * startsUpTo t is < is.length) : t ∈ started s is := by
  induction is generalizing s with
  | nil => exact absurd hLong (Nat.not_lt_zero _)
  | cons i is ih =>
    rw [started, Machine.emitted_cons, List.mem_append]
    by_cases hStart : (s.output i).start = some t
    · exact .inl (Option.mem_toList.mpr hStart)
    · obtain ⟨hStill, hLess⟩ := cyclesLeft_next t hCount h.1 hWaits hStart
      refine .inr (ih h.2 (hCount.next _) hStill ?_)
      rw [startsUpTo, List.map_cons, List.sum_cons, List.length_cons] at hLong
      change (s.next i).cyclesLeft t + 37 * startsUpTo t is < is.length
      rw [startsUpTo]
      omega

theorem cyclesLeft_le (s : TransplantCSRs thidW) : s.cyclesLeft t ≤ 37 * (t.toNat + 1) + 36 := by
  have hAhead := card_upTo_le s.pendingHostTrans t.toNat
  have hRemaining : s.unit.remaining ≤ 36 := by
    rw [TransplantControl.remaining]
    split <;> omega
  rw [cyclesLeft]
  split <;> omega

theorem counting_run (is : List (Input thidW)) : ((machine thidW).run (reset thidW) is).unit.Counting := by
  have hReach : (machine thidW).Reachable (reset thidW) ((machine thidW).run (reset thidW) is) := ⟨is, rfl⟩
  exact @Machine.Reachable.invariant _ _ _ _ (fun s => s.unit.Counting) _ _ hReach .reset fun s i h => h.next _

end Progress

variable (thidW) in
/-- From reset, start and stop requests are served exactly once: the starts of a thread are the start bits
written for it, but for the one that still waits or is being copied in; that one is served within a bounded
time; and in every cycle the registers lose the bits of the served requests and no others. -/
theorem requests_served_once {is : List (Input thidW)} (h : (machine thidW).Along HostWaits (reset thidW) is) :
    (∀ t, requested t is = (started (reset thidW) is).count t + ((machine thidW).run (reset thidW) is).owed t) ∧
    (machine thidW).Along Exact (reset thidW) is ∧
    ∀ t qs, (machine thidW).Along HostWaits ((machine thidW).run (reset thidW) is) qs →
      ((machine thidW).run (reset thidW) is).owed t ≠ 0 → 37 * (t.toNat + 2 + startsUpTo t qs) ≤ qs.length →
      t ∈ started ((machine thidW).run (reset thidW) is) qs := by
  refine ⟨fun t => ?_, h.mono fun s i hRule => exact_iff_noClash.mpr hRule.toNoClash, fun t qs hQs hOwed hLong => ?_⟩
  · have hReset : (reset thidW).owed t = 0 := by simp [owed, reset, pends, entering, TransplantControl.reset]
    rw [← requested_add_owed t h, hReset, Nat.add_zero]
  · have hBound := cyclesLeft_le t ((machine thidW).run (reset thidW) is)
    refine started_of_cyclesLeft t (hQs.mono fun _ _ hRule => hRule.toNoClash) (counting_run is) ?_ (by omega)
    by_contra hNone
    rw [not_or, Bool.not_eq_true, Bool.not_eq_true] at hNone
    exact hOwed (by rw [owed, hNone.1, hNone.2]; rfl)

section Runs

def startOf {thidW : Nat} (word : BitVec axiDataW) : Input thidW := ⟨some ⟨1, word⟩, none⟩

def stopOf {thidW : Nat} (word : BitVec axiDataW) : Input thidW := ⟨some ⟨2, word⟩, none⟩

def idleCycle {thidW : Nat} : Input thidW := ⟨none, none⟩

/-- The host starts thread 1, then thread 0, and asks for a stop of thread 1. It starts thread 0 again with its clear pulse. -/
def oneByOne : List (Input 1) :=
  startOf 2 :: List.replicate 9 idleCycle ++ startOf 1 :: List.replicate 9 idleCycle ++
    stopOf 2 :: List.replicate 17 idleCycle ++ [startOf 1]

def afterwards : List (Input 1) := ⟨none, some 1⟩ :: List.replicate 120 idleCycle

theorem requests_served_once_one_by_one :
    ((machine 1).output ((machine 1).run (reset 1) (oneByOne.take 38)) idleCycle).clear = some 0 ∧
      (machine 1).Along Exact (reset 1) (oneByOne ++ afterwards) ∧
      requested 0 oneByOne = (started (reset 1) oneByOne).count 0 + ((machine 1).run (reset 1) oneByOne).owed 0 ∧
      0 ∈ started ((machine 1).run (reset 1) oneByOne) afterwards ∧
      ((machine 1).run (reset 1) oneByOne).stops 1 = true ∧ ((machine 1).run (reset 1) (oneByOne ++ afterwards)).stops 1 = false := by
  have hRule : (machine 1).Along HostWaits (reset 1) (oneByOne ++ afterwards) := by decide +kernel
  obtain ⟨hFirst, hRest⟩ := (Machine.along_append _ _ _).mp hRule
  obtain ⟨hCount, -, hServed⟩ := requests_served_once 1 hFirst
  obtain ⟨-, hExact, -⟩ := requests_served_once 1 hRule
  have hOwed : ((machine 1).run (reset 1) oneByOne).owed 0 ≠ 0 := by decide +kernel
  exact ⟨by decide +kernel, hExact, hCount 0, hServed 0 afterwards hRest hOwed (by decide +kernel), by decide +kernel⟩

/-- The host starts thread 1, then thread 0 and, in the cycle its start bit is cleared, thread 2. -/
def overlapping : List (Input 2) :=
  startOf 2 :: List.replicate 9 idleCycle ++ startOf 1 :: List.replicate 27 idleCycle ++ startOf 4 :: List.replicate 120 idleCycle

/-- Thread 0 is copied in twice for one start. -/
theorem start_repeated : requested 0 overlapping = 1 ∧ (started (reset 2) overlapping).count 0 = 2 ∧
    ((machine 2).run (reset 2) (overlapping.take 38)).pends 0 = true ∧
    ((machine 2).run (reset 2) (overlapping.take 38)).pends 2 = false := by
  decide +kernel

end Runs

end TransplantCSRs

end KnockoutKraken.Armflex
