import KnockoutKraken.Armflex.MemoryInterface
import KnockoutKraken.Library.Machine
import Mathlib.Algebra.Order.Group.Multiset
import Mathlib.Tactic.Abel

/-!
# Answers and their requests

A cache answers in order: its first answer to a request is a hit or a
miss, and each refill ends the oldest miss. The interface is watched
together with the requests without a first answer, the requests that
missed, and everything it accepted and handed over.
-/

namespace KnockoutKraken.Armflex

open Library Util

universe u

structure WatchedInterface (α : Type u) where
  metaQ : DoubleLatencyQueue α
  unanswered : List α
  missed : List α
  accepted : List α
  delivered : List α

namespace WatchedInterface

structure Input (params : PipelineParams) (α : Type u) where
  req : Option α
  cacheReady : Bool
  resp : Option (CacheResponse params)
  pipeReady : Bool

variable {params : PipelineParams} {α : Type u}

def reset : WatchedInterface α := ⟨.reset, [], [], [], []⟩

namespace Input

variable (i : Input params α)

def answer : Option (CacheResponse params) := if i.pipeReady then i.resp else none

def firstAnswered : Bool := i.answer.any fun r => !r.miss2hit

def missing : Bool := i.answer.any CacheResponse.miss

def refilled : Bool := i.answer.any CacheResponse.miss2hit

end Input

variable (maxInstsInFlight : Nat) (s : WatchedInterface α) (i : Input params α)

def accept : Option α :=
  if CacheInterface.cacheValid maxInstsInFlight s.metaQ i.req.isSome && i.cacheReady then i.req else none

def delivery : Option α :=
  if i.pipeReady then (CacheInterface.pipeResp s.metaQ i.resp i.pipeReady).map Prod.fst else none

def answered : Option α :=
  if i.refilled then s.missed.head? else if i.firstAnswered && !i.missing then s.unanswered.head? else none

def next : WatchedInterface α where
  metaQ := CacheInterface.next maxInstsInFlight s.metaQ i.resp i.pipeReady (s.accept maxInstsInFlight i)
  unanswered := (if i.firstAnswered then s.unanswered.tail else s.unanswered) ++ (s.accept maxInstsInFlight i).toList
  missed := (if i.refilled then s.missed.tail else s.missed) ++ if i.missing then s.unanswered.head?.toList else []
  accepted := s.accepted ++ (s.accept maxInstsInFlight i).toList
  delivered := s.delivered ++ (s.delivery i).toList

def machine : Machine (WatchedInterface α) (Input params α) (Option α) := ⟨next maxInstsInFlight, delivery⟩

def outstanding : Nat := s.unanswered.length + s.missed.length

/-- A cache answers what it was asked. -/
structure InOrder : Prop where
  legal : ∀ r ∈ i.resp, r.Legal
  first : i.firstAnswered = true → s.unanswered ≠ []
  refill : i.refilled = true → s.missed ≠ []

def Kept : Prop := (s.delivered ++ s.metaQ.baseQ ++ s.metaQ.longQ).Perm s.accepted

def PendingExact : Prop := s.metaQ.pending maxInstsInFlight = 0 ↔ s.unanswered = [] ∧ s.missed = []

/-- The answer comes with its own request, and after the cycle no request is lost or there twice and the
number of pending ones is zero for none only. -/
structure Matched : Prop where
  answer : s.delivery i = s.answered i
  kept : (s.next maxInstsInFlight i).Kept
  pending : (s.next maxInstsInFlight i).PendingExact maxInstsInFlight

/-- There is room for the miss, and the number of pending requests does not wrap around to zero. -/
structure Fits : Prop where
  room : i.missing = true → s.missed.length < maxInstsInFlight
  count : 2 ^ Nat.clog 2 maxInstsInFlight ∣ (s.next maxInstsInFlight i).outstanding →
    (s.next maxInstsInFlight i).outstanding = 0

instance : Decidable (s.InOrder i) :=
  decidable_of_iff ((∀ r ∈ i.resp, r.Legal) ∧ (i.firstAnswered = true → s.unanswered.isEmpty = false) ∧
    (i.refilled = true → s.missed.isEmpty = false))
    ⟨fun ⟨hL, hF, hR⟩ => ⟨hL, by simpa using hF, by simpa using hR⟩, fun h => ⟨h.legal, by simpa using h.first, by simpa using h.refill⟩⟩

instance : Decidable (s.Fits maxInstsInFlight i) :=
  decidable_of_iff (_ ∧ _) ⟨fun ⟨hR, hC⟩ => ⟨hR, hC⟩, fun h => ⟨h.room, h.count⟩⟩

instance [DecidableEq α] : Decidable (s.Matched maxInstsInFlight i) :=
  decidable_of_iff (s.delivery i = s.answered i ∧
    ((s.next maxInstsInFlight i).delivered ++ (s.next maxInstsInFlight i).metaQ.baseQ ++
      (s.next maxInstsInFlight i).metaQ.longQ).Perm (s.next maxInstsInFlight i).accepted ∧
    ((s.next maxInstsInFlight i).metaQ.pending maxInstsInFlight = 0 ↔
      (s.next maxInstsInFlight i).unanswered = [] ∧ (s.next maxInstsInFlight i).missed = []))
    ⟨fun ⟨hA, hK, hP⟩ => ⟨hA, hK, hP⟩, fun h => ⟨h.answer, h.kept, h.pending⟩⟩

structure Inv : Prop where
  base : s.metaQ.baseQ = s.unanswered
  long : s.metaQ.longQ = s.missed
  kept : s.Kept

variable {maxInstsInFlight} {s} {i}

theorem ctrl_eq (h : s.InOrder i) :
    CacheInterface.ctrl i.resp i.pipeReady = ⟨false, i.firstAnswered && !i.missing, i.missing, i.refilled⟩ := by
  obtain ⟨req, cacheReady, resp, pipeReady⟩ := i
  cases resp with
  | none => cases pipeReady <;> rfl
  | some r =>
    obtain ⟨hMiss, hRefill⟩ := h.legal r rfl
    cases pipeReady with
    | false => rfl
    | true => cases hh : r.hit <;> cases hm : r.miss2hit <;>
        simp_all [CacheInterface.ctrl, Input.firstAnswered, Input.missing, Input.refilled, Input.answer]

theorem firstAnswered_of_missing (h : s.InOrder i) (hMissing : i.missing = true) :
    i.firstAnswered = true ∧ i.refilled = false := by
  obtain ⟨r, hAnswer, hMiss⟩ := (Option.any_eq_true _ _).mp hMissing
  have hResp : r ∈ i.resp := by
    rw [Input.answer] at hAnswer
    split at hAnswer
    · exact hAnswer
    · cases hAnswer
  obtain ⟨hNotHit, hRefill⟩ := h.legal r hResp
  have hFirst : r.miss2hit = false := by
    cases hm : r.miss2hit with
    | false => rfl
    | true => simp [hRefill hm, hMiss] at hNotHit
  rw [Input.firstAnswered, Input.refilled, hAnswer]
  simp [hFirst]

theorem not_first_of_refilled (h : s.InOrder i) (hRefill : i.refilled = true) :
    i.firstAnswered = false ∧ i.missing = false := by
  constructor
  · obtain ⟨r, hAnswer, hHit⟩ := (Option.any_eq_true _ _).mp hRefill
    rw [Input.firstAnswered, hAnswer]
    simp [hHit]
  · cases hMissing : i.missing with
    | false => rfl
    | true => simp [(firstAnswered_of_missing h hMissing).2] at hRefill

theorem accept_ready (hSome : (s.accept maxInstsInFlight i).isSome = true) :
    s.metaQ.reqReady maxInstsInFlight = true := by
  rw [accept] at hSome
  split at hSome
  · rename_i hTaken
    simp only [CacheInterface.cacheValid, Bool.and_eq_true] at hTaken
    exact hTaken.1.2
  · cases hSome

theorem Inv.base_next (hInv : s.Inv) (h : s.InOrder i) :
    (s.next maxInstsInFlight i).metaQ.baseQ = (s.next maxInstsInFlight i).unanswered := by
  have hReady : DoubleLatencyQueue.baseReady (CacheInterface.ctrl i.resp i.pipeReady) = i.firstAnswered := by
    rw [ctrl_eq h, DoubleLatencyQueue.baseReady]
    cases hMissing : i.missing with
    | false => simp
    | true => simp [(firstAnswered_of_missing h hMissing).1]
  change (DoubleLatencyQueue.queue maxInstsInFlight).next s.metaQ.baseQ _ _ = _
  rw [FlushQueue.next_of_ready rfl fun hSome => ?_, hReady, hInv.base]
  · rfl
  · have hRoom := accept_ready hSome
    simpa [DoubleLatencyQueue.reqReady, FlushQueue.enqReady, DoubleLatencyQueue.queue] using hRoom

theorem longEnq_eq (hInv : s.Inv) (h : s.InOrder i) :
    s.metaQ.longEnq (CacheInterface.ctrl i.resp i.pipeReady) = if i.missing then s.unanswered.head? else none := by
  rw [ctrl_eq h, DoubleLatencyQueue.longEnq, hInv.base]

theorem Inv.long_next (hInv : s.Inv) (h : s.InOrder i) (hRoom : i.missing = true → s.missed.length < maxInstsInFlight) :
    (s.next maxInstsInFlight i).metaQ.longQ = (s.next maxInstsInFlight i).missed := by
  change (DoubleLatencyQueue.queue maxInstsInFlight).next s.metaQ.longQ _ _ = _
  rw [longEnq_eq hInv h, FlushQueue.next_of_ready rfl fun hSome => ?_, ctrl_eq h, hInv.long]
  · cases hMissing : i.missing <;> simp [next, hMissing]
  · have hMissing : i.missing = true := by
      by_contra hNot
      simp [hNot] at hSome
    rw [hInv.long, FlushQueue.enqReady]
    simp [DoubleLatencyQueue.queue, hRoom hMissing]

theorem Inv.long_next_of_full (hInv : s.Inv) (h : s.InOrder i) (hMissing : i.missing = true)
    (hFull : maxInstsInFlight ≤ s.missed.length) : (s.next maxInstsInFlight i).metaQ.longQ = s.missed := by
  have hNot : (DoubleLatencyQueue.queue maxInstsInFlight).doEnq s.missed (s.unanswered.head?) false = false := by
    rw [FlushQueue.doEnq, FlushQueue.enqReady, DoubleLatencyQueue.queue, decide_eq_false (Nat.not_lt.mpr hFull)]
    simp
  change (DoubleLatencyQueue.queue maxInstsInFlight).next s.metaQ.longQ _ _ = _
  rw [longEnq_eq hInv h, ctrl_eq h, hInv.long, (firstAnswered_of_missing h hMissing).2, hMissing, if_pos rfl,
    FlushQueue.next, hNot]
  simp [FlushQueue.doDeq]

theorem Inv.delivery_eq (hInv : s.Inv) (h : s.InOrder i) : s.delivery i = s.answered i := by
  have hCtrl := ctrl_eq h
  obtain ⟨req, cacheReady, resp, pipeReady⟩ := i
  cases pipeReady with
  | false => rfl
  | true =>
    cases resp with
    | none => rfl
    | some r =>
      obtain ⟨hMiss, hRefill⟩ := h.legal r rfl
      simp only [delivery, answered, CacheInterface.pipeResp, Option.bind_some, Bool.true_and, if_true,
        DoubleLatencyQueue.resp, hCtrl, hInv.base, hInv.long]
      cases hh : r.hit <;> cases hm : r.miss2hit <;>
        simp_all [Input.firstAnswered, Input.missing, Input.refilled, Input.answer, Function.comp_def]

/-- What is handed over or waits is what was accepted, as long as no miss is dropped. -/
theorem Inv.kept_next (hInv : s.Inv) (h : s.InOrder i) (hRoom : i.missing = true → s.missed.length < maxInstsInFlight) :
    (s.next maxInstsInFlight i).Kept := by
  have hKept := hInv.kept
  rw [Kept, hInv.base, hInv.long, ← Multiset.coe_eq_coe, ← Multiset.coe_add, ← Multiset.coe_add] at hKept
  rw [Kept, hInv.base_next h, hInv.long_next h hRoom, ← Multiset.coe_eq_coe, ← Multiset.coe_add, ← Multiset.coe_add]
  simp only [next, hInv.delivery_eq h, answered, ← Multiset.coe_add]
  rw [← hKept]
  cases hRefill : i.refilled with
  | true =>
    obtain ⟨hFirst, hMissing⟩ := not_first_of_refilled h hRefill
    obtain ⟨m, rest, hMissed⟩ := List.exists_cons_of_ne_nil (h.refill hRefill)
    simp only [hFirst, hMissing, hMissed, if_true, Bool.false_eq_true, if_false, List.tail_cons, List.head?_cons,
      Option.toList_some, ← Multiset.cons_coe, Multiset.coe_nil, ← Multiset.singleton_add]
    abel
  | false =>
    cases hFirst : i.firstAnswered with
    | false =>
      have hMissing : i.missing = false := by
        by_contra hNot
        simp [(firstAnswered_of_missing h (by simpa using hNot)).1] at hFirst
      simp only [hMissing, Bool.false_eq_true, if_false, Bool.false_and, Option.toList_none, Multiset.coe_nil,
        add_zero]
      abel
    | true =>
      obtain ⟨m, rest, hUnanswered⟩ := List.exists_cons_of_ne_nil (h.first hFirst)
      cases hMissing : i.missing <;>
      · simp only [hUnanswered, if_true, Bool.false_eq_true, if_false, List.tail_cons, List.head?_cons, Option.toList_some,
          Option.toList_none, Bool.not_true, Bool.not_false, Bool.and_true, Bool.and_false, ← Multiset.cons_coe,
          Multiset.coe_nil, ← Multiset.singleton_add]
        abel

/-- A miss that finds the long queue full is lost. -/
theorem Inv.not_kept_of_full (hInv : s.Inv) (h : s.InOrder i) (hMissing : i.missing = true)
    (hFull : maxInstsInFlight ≤ s.missed.length) : ¬ (s.next maxInstsInFlight i).Kept := by
  obtain ⟨hFirst, hRefill⟩ := firstAnswered_of_missing h hMissing
  intro hKept
  have hLength := hKept.length_eq
  have hBefore := hInv.kept.length_eq
  have hPos := List.length_pos_of_ne_nil (h.first hFirst)
  rw [hInv.base, hInv.long] at hBefore
  rw [hInv.base_next h, hInv.long_next_of_full h hMissing hFull] at hLength
  simp only [next, hInv.delivery_eq h, answered, hRefill, hFirst, hMissing, if_true, Bool.false_eq_true, if_false,
    Bool.not_true, Bool.and_false, Option.toList_none, List.append_nil, List.length_append, List.length_tail] at hLength hBefore
  omega

theorem pendingExact_iff (hBase : s.metaQ.baseQ = s.unanswered) (hLong : s.metaQ.longQ = s.missed) :
    s.PendingExact maxInstsInFlight ↔ (2 ^ Nat.clog 2 maxInstsInFlight ∣ s.outstanding → s.outstanding = 0) := by
  have hNone : (s.unanswered = [] ∧ s.missed = []) ↔ s.outstanding = 0 := by
    rw [outstanding, Nat.add_eq_zero_iff, List.length_eq_zero_iff, List.length_eq_zero_iff]
  rw [PendingExact, hNone, DoubleLatencyQueue.pending, DoubleLatencyQueue.count, hBase, hLong, ← Nat.dvd_iff_mod_eq_zero]
  constructor
  · exact Iff.mp
  · intro h
    exact ⟨h, fun hZero => by rw [show s.unanswered.length + s.missed.length = 0 from hZero]; exact Nat.dvd_zero _⟩

theorem Inv.matched_iff (hInv : s.Inv) (h : s.InOrder i) : s.Matched maxInstsInFlight i ↔ s.Fits maxInstsInFlight i := by
  constructor
  · rintro ⟨-, hKept, hPending⟩
    have hRoom : i.missing = true → s.missed.length < maxInstsInFlight := by
      intro hMissing
      by_contra hFull
      exact hInv.not_kept_of_full h hMissing (Nat.le_of_not_lt hFull) hKept
    exact ⟨hRoom, (pendingExact_iff (hInv.base_next h) (hInv.long_next h hRoom)).mp hPending⟩
  · rintro ⟨hRoom, hCount⟩
    exact ⟨hInv.delivery_eq h, hInv.kept_next h hRoom,
      (pendingExact_iff (hInv.base_next h) (hInv.long_next h hRoom)).mpr hCount⟩

theorem Inv.next (hInv : s.Inv) (h : s.InOrder i) (hFits : s.Fits maxInstsInFlight i) :
    (s.next maxInstsInFlight i).Inv :=
  ⟨hInv.base_next h, hInv.long_next h hFits.room, hInv.kept_next h hFits.room⟩

theorem inv_reset : (reset : WatchedInterface α).Inv := ⟨rfl, rfl, .refl _⟩

section Runs

variable (maxInstsInFlight)

theorem responses_matched {is : List (Input params α)}
    (h : (machine maxInstsInFlight).Along InOrder reset is) :
    (machine maxInstsInFlight).Along (Matched maxInstsInFlight) reset is ↔
      (machine maxInstsInFlight).Along (Fits maxInstsInFlight) reset is :=
  h.congr inv_reset (fun _ _ hInv hOrder => hInv.next hOrder) fun _ _ => Inv.matched_iff

abbrev fourByteBlocks : PipelineParams := ⟨1, 14, 2⟩

def ask (m : Nat) : Input fourByteBlocks Nat := ⟨some m, true, none, true⟩

def answerWith (hit refill : Bool) : Input fourByteBlocks Nat := ⟨none, true, some ⟨0, hit, !hit, refill⟩, true⟩

/-- The second request hits while the first one misses. -/
theorem responses_matched_two : (machine 8).Along (Matched 8) reset
    [ask 0, ask 1, answerWith false false, answerWith true false, answerWith true true] := by
  refine (responses_matched 8 ?_).mpr ?_
  · decide
  · decide

/-- Nine requests miss, and the long queue of the instruction fetch has eight places. -/
theorem ninth_miss_lost :
    (machine 8).Along InOrder reset ((List.range 9).flatMap fun m => [ask m, answerWith false false]) ∧
      ¬ (machine 8).Along (Matched 8) reset ((List.range 9).flatMap fun m => [ask m, answerWith false false]) := by
  refine ⟨?_, ?_⟩ <;> decide +kernel

end Runs

end WatchedInterface

end KnockoutKraken.Armflex
