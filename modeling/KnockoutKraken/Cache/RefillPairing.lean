import KnockoutKraken.Cache.BackEndOrder
import KnockoutKraken.Cache.Conservation

/-!
# Misses and their refills

A miss goes to the refill queue and, as a read, to the memory. The cache
is watched together with the reads that left the merger, the entries of
the refill queue and the number of words the memory has handed over.
-/

namespace KnockoutKraken.Cache

open Library Util

variable {params : CacheParams} {core : LRUCore params.wayWidth}

structure WatchedRefill (params : CacheParams) (core : LRUCore params.wayWidth) where
  cache : BaseCache params core
  /-- The reads that left the merger, oldest first. -/
  reads : List (MergedBackendRequest params.databankParameter)
  /-- The misses that were entered in the refill queue, oldest first. -/
  entries : List (MissRequest params.databankParameter)
  /-- The words that were consumed. -/
  answered : Nat

namespace WatchedRefill

open BackendRequestMerger

/-- The wires of a cycle, and the address that the offered word was read for. -/
structure Input (params : CacheParams) where
  wires : BaseCache.Input params
  readFor : params.Addr

variable (s : WatchedRefill params core) (i : Input params)

def readLeaving : Option (MergedBackendRequest params.databankParameter) :=
  if i.wires.axiReqReady then (s.cache.axiReq i.wires).filter (ofKind false) else none

def mergerAccepts : Option (MissRequest params.databankParameter) :=
  s.cache.missRequestO.filter fun _ => s.cache.refillEnqReady i.wires && s.cache.mergerReady i.wires 0

def refillEnters : Option (MissRequest params.databankParameter) :=
  s.cache.missRequestO.filter fun _ => s.cache.mergerReady i.wires 0 && s.cache.refillEnqReady i.wires

def wordConsumed : Bool := i.wires.axiResp.isSome && s.cache.axiRespReady i.wires

def next : WatchedRefill params core where
  cache := s.cache.next i.wires
  reads := s.reads ++ (s.readLeaving i).toList
  entries := s.entries ++ (s.refillEnters i).toList
  answered := if s.wordConsumed i then s.answered + 1 else s.answered

def machine (params : CacheParams) (core : LRUCore params.wayWidth) :
    Machine (WatchedRefill params core) (Input params) (BaseCache.Output params) :=
  ⟨next, fun s i => BaseCache.machine.output s.cache i.wires⟩

def reset (lastGrant : Fin 2) : WatchedRefill params core := ⟨.init lastGrant, [], [], 0⟩

/-- The memory answers the reads in the order it accepts them. -/
def InOrder : Prop :=
  i.wires.axiResp.isSome = true → s.reads[s.answered]?.map MergedBackendRequest.addr = some i.readFor

instance : Decidable (s.InOrder i) := inferInstanceAs (Decidable (_ → _ = _))

structure Paired : Prop where
  entered : s.refillEnters i = s.mergerAccepts i
  leaves : s.readLeaving i = (s.mergerAccepts i).map readRequestConverted
  order : s.reads = s.entries.map readRequestConverted
  joined : ∀ request ∈ s.cache.refillRequest i.wires, ∃ miss word, s.entries[s.answered]? = some miss ∧
    i.wires.axiResp = some word ∧ request = miss.refillToBank word ∧ miss.addr = i.readFor
  consumed : s.wordConsumed i = true ↔
    (s.cache.refillRequest i.wires).isSome = true ∧ s.cache.entered i.wires = s.cache.refillRequest i.wires

/-- A refill comes when the bank can take it. -/
def Taken : Prop :=
  i.wires.flushValid = false → i.wires.stallReq = false → (s.cache.refillRequest i.wires).isSome = true →
    s.cache.bank.Accepting (s.cache.bankInput i.wires)

instance : Decidable (s.Taken i) := inferInstanceAs (Decidable (_ → _ → _ → _))

variable {s} {i}

theorem missFire_eq_mergerAccepts : s.cache.missFire i.wires = s.mergerAccepts i := by
  rw [BaseCache.missFire, mergerAccepts, BaseCache.bankInput]
  cases s.cache.missRequestO <;> cases s.cache.refillEnqReady i.wires <;> cases s.cache.mergerReady i.wires 0 <;> rfl

theorem refillEnters_eq : s.refillEnters i = s.mergerAccepts i := by
  rw [refillEnters, mergerAccepts]
  exact congrArg (fun b => s.cache.missRequestO.filter fun _ => b) (Bool.and_comm _ _)

theorem readLeaving_eq : s.readLeaving i = (s.mergerAccepts i).map readRequestConverted := by
  rw [readLeaving, ← BaseCache.missFire_eq, missFire_eq_mergerAccepts]

theorem wordConsumed_eq : s.wordConsumed i = ((s.cache.refillRequest i.wires).isSome && BaseCache.refillReady i.wires) := by
  rw [wordConsumed, BaseCache.axiRespReady, BaseCache.refillRequest]
  cases s.cache.refillQueue <;> cases i.wires.axiResp <;> simp

structure Inv (s : WatchedRefill params core) : Prop where
  order : s.reads = s.entries.map readRequestConverted
  waiting : s.cache.refillQueue = s.entries.drop s.answered
  bound : s.answered ≤ s.entries.length

theorem Inv.reset (lastGrant : Fin 2) : Inv (reset lastGrant : WatchedRefill params core) := ⟨rfl, rfl, le_rfl⟩

theorem Inv.oldest (h : s.Inv) : s.cache.refillQueue.head? = s.entries[s.answered]? := by rw [h.waiting, List.head?_drop]

theorem Inv.lt_of_consumed (h : s.Inv) (hWord : s.wordConsumed i = true) : s.answered < s.entries.length := by
  rw [wordConsumed, BaseCache.axiRespReady, h.waiting] at hWord
  rcases Nat.lt_or_ge s.answered s.entries.length with hLt | hGe
  · exact hLt
  · rw [List.drop_eq_nil_of_le hGe] at hWord
    simp at hWord

/-- The queue keeps the misses whose words are not consumed, whatever the bank does. -/
theorem Inv.next (h : s.Inv) : (s.next i).Inv := by
  have hQueue : (s.next i).cache.refillQueue =
      (if s.wordConsumed i then s.cache.refillQueue.tail else s.cache.refillQueue) ++ (s.refillEnters i).toList := by
    rw [refillEnters_eq, ← missFire_eq_mergerAccepts, wordConsumed_eq]
    refine FlushQueue.next_of_ready rfl fun hFire => ?_
    cases hReady : (s.cache.bankInput i.wires).missReady with
    | false =>
      rw [BaseCache.missFire, hReady] at hFire
      cases hFire
    | true => exact (Bool.and_eq_true_iff.mp hReady).1
  constructor
  · change s.reads ++ (s.readLeaving i).toList = (s.entries ++ (s.refillEnters i).toList).map readRequestConverted
    rw [h.order, List.map_append, readLeaving_eq, refillEnters_eq]
    cases s.mergerAccepts i <;> rfl
  · rw [hQueue, h.waiting]
    change _ = (s.entries ++ (s.refillEnters i).toList).drop (if s.wordConsumed i then s.answered + 1 else s.answered)
    cases hWord : s.wordConsumed i with
    | false => exact (List.drop_append_of_le_length h.bound).symm
    | true => rw [if_pos rfl, if_pos rfl, List.tail_drop, List.drop_append_of_le_length (h.lt_of_consumed hWord)]
  · change (if s.wordConsumed i then s.answered + 1 else s.answered) ≤ (s.entries ++ (s.refillEnters i).toList).length
    rw [List.length_append]
    cases hWord : s.wordConsumed i with
    | false => exact Nat.le_add_right_of_le h.bound
    | true => exact Nat.le_add_right_of_le (h.lt_of_consumed hWord)

theorem Inv.joined (h : s.Inv) (hOrder : s.InOrder i) {request : BankRequest params.databankParameter}
    (hRefill : s.cache.refillRequest i.wires = some request) : ∃ miss word, s.entries[s.answered]? = some miss ∧
      i.wires.axiResp = some word ∧ request = miss.refillToBank word ∧ miss.addr = i.readFor := by
  rw [InOrder, h.order, List.getElem?_map, ← h.oldest] at hOrder
  rw [← h.oldest]
  rw [BaseCache.refillRequest] at hRefill
  split at hRefill
  · next miss rest word hQueue hWord =>
    rw [hQueue, hWord] at hOrder
    exact ⟨miss, word, by rw [hQueue]; rfl, hWord, (Option.some.inj hRefill).symm, Option.some.inj (hOrder rfl)⟩
  · cases hRefill

/-- A word is consumed with the request that it is part of exactly when the bank takes every refill. -/
theorem consumed_iff : (s.wordConsumed i = true ↔ (s.cache.refillRequest i.wires).isSome = true ∧
    s.cache.entered i.wires = s.cache.refillRequest i.wires) ↔ s.Taken i := by
  rw [wordConsumed_eq, Taken, BaseCache.refillReady, BaseCache.entered_eq]
  cases hRefill : s.cache.refillRequest i.wires with
  | none => simp
  | some request =>
    obtain ⟨miss, word, rfl⟩ : ∃ miss : MissRequest _, ∃ word, request = miss.refillToBank word := by
      rw [BaseCache.refillRequest] at hRefill
      split at hRefill
      · next miss _ word _ _ => exact ⟨miss, word, (Option.some.inj hRefill).symm⟩
      · cases hRefill
    cases hFlush : i.wires.flushValid with
    | true =>
      have hOther : flushToBank i.wires.flushAddr ≠ miss.refillToBank word := by
        intro hEq
        cases hEq
      simp [BaseCache.arbiterBits, hFlush, hOther]
    | false =>
      have hBits : s.cache.arbiterBits i.wires = miss.refillToBank word := by
        rw [BaseCache.arbiterBits, hFlush, hRefill]
        rfl
      have hValid : s.cache.arbiterValid i.wires = true := by
        rw [BaseCache.arbiterValid, hRefill, Option.isSome_some, Bool.or_true, Bool.true_or]
      cases hStall : i.wires.stallReq with
      | true => simp
      | false =>
        rw [hBits, hValid, BaseCache.bankReady, ← DataBank.pipelineStateReady0_iff]
        cases s.cache.bank.pipelineStateReady0 (s.cache.bankInput i.wires) <;> simp

theorem Inv.paired_iff (h : s.Inv) (hOrder : s.InOrder i) : s.Paired i ↔ s.Taken i := by
  rw [← consumed_iff]
  constructor
  · exact Paired.consumed
  · exact fun hConsumed => ⟨refillEnters_eq, readLeaving_eq, h.order, fun _ => h.joined hOrder, hConsumed⟩

/-- In every run in which the memory answers in order, misses and refills are paired in every cycle
exactly when the bank can take every refill that comes without a flush and a stall. -/
theorem refill_pairing_iff {lastGrant : Fin 2} {is : List (Input params)}
    (h : (machine params core).Along InOrder (WatchedRefill.reset lastGrant) is) :
    (machine params core).Along Paired (WatchedRefill.reset lastGrant) is ↔
      (machine params core).Along Taken (WatchedRefill.reset lastGrant) is :=
  h.congr (Inv.reset lastGrant) (fun _ _ hInv _ _ => hInv.next) fun _ _ hInv hOrder => hInv.paired_iff hOrder

section OneSet

abbrev oneSet : CacheParams := ⟨0, 1, 2, 1, 4⟩

/-- A read, or none, offered while the memory port is ready or not and answers block 0 or nothing. -/
def cycle (addr : Option oneSet.PAddr) (ready : Bool) (word : Option oneSet.Block) : Input oneSet :=
  ⟨⟨⟨addr.getD 0, 0, 0⟩, addr.isSome, 0, false, false, ready, word⟩, 0⟩

def missAndRefill : List (Input oneSet) :=
  [cycle (some 0) true none, cycle none true none, cycle none true none, cycle none true (some 5), cycle none true none]

theorem refill_pairing_one :
    (machine oneSet (PseudoTreeLRUCore 1)).Along Paired (WatchedRefill.reset 0) missAndRefill ↔
      (machine oneSet (PseudoTreeLRUCore 1)).Along Taken (WatchedRefill.reset 0) missAndRefill :=
  refill_pairing_iff (by decide +kernel)

/-- Three more misses fill the bank while the port is busy, so that the word of the first one is consumed and lost. -/
theorem word_lost :
    let is := [cycle (some 0) true none, cycle (some 2) true none, cycle (some 4) true none, cycle (some 6) false none,
      cycle (some 6) false none, cycle none false (some 5)]
    (machine oneSet (PseudoTreeLRUCore 1)).Along InOrder (WatchedRefill.reset 0) is ∧
      ¬ (machine oneSet (PseudoTreeLRUCore 1)).Along Paired (WatchedRefill.reset 0) is := by
  intro is
  refine ⟨by decide +kernel, fun hPaired => ?_⟩
  obtain ⟨-, hLast, -⟩ := (Machine.along_append (WatchedRefill.reset 0) (is.take 5) (is.drop 5)).mp hPaired
  exact absurd hLast.consumed (by decide +kernel)

end OneSet

end WatchedRefill

end KnockoutKraken.Cache
