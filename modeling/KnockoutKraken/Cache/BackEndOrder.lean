import KnockoutKraken.Cache.AXIDramController
import KnockoutKraken.Cache.BankHazard
import KnockoutKraken.Library.Overtaking

/-!
# Order at the memory port

A miss and a writeback leave the second stage in turn, wait in two
queues and meet again at the merger. The port itself keeps the order in
which the merger serves them. The merger turns to the misses after every
writeback it has served, so a read reaches the port after every earlier
writeback of its block as long as no such writeback waits behind that one.
-/

namespace KnockoutKraken.Cache

open Library Util Cache2AXIAdaptor

variable {params : CacheParams} {core : LRUCore params.wayWidth} {queueSize : Nat}

def ofKind (wV : Bool) (request : Request params) : Bool := request.wV == wV

@[simp] theorem ofKind_self (request : Request params) : ofKind request.wV request = true := beq_self_eq_true _

/-- A read must not overtake an earlier writeback of its block. -/
def WritesBlock (earlier later : Request params) : Prop :=
  earlier.wV = true ∧ later.wV = false ∧ earlier.addr = later.addr

instance (earlier later : Request params) : Decidable (WritesBlock earlier later) :=
  inferInstanceAs (Decidable (_ ∧ _ ∧ _))

/-- The cache at its port, with the numbered requests its second stage emitted and how many
of them the port has finished. -/
structure OrderedPort (params : CacheParams) (core : LRUCore params.wayWidth) where
  port : MemoryPort params core
  log : Log (Request params)
  finished : Nat

namespace OrderedPort

variable (queueSize) (g : OrderedPort params core) (i : MemoryPort.Input params)

def bankInput : DataBank.Input params.databankParameter :=
  g.port.cache.bankInput (g.port.cacheInput queueSize i)

def missEmitted : Option (Request params) :=
  (g.port.cache.bank.missN (g.bankInput queueSize i)).map BackendRequestMerger.readRequestConverted

def writebackEmitted : Option (Request params) :=
  (g.port.cache.bank.writebackN (g.bankInput queueSize i)).map BackendRequestMerger.writeRequestConverted

def nextPassed : Log (Request params) :=
  match g.port.merged queueSize i with
  | some request => g.log.pass (ofKind request.wV)
  | none => g.log

def next : OrderedPort params core where
  port := g.port.next queueSize i
  log := ((g.nextPassed queueSize i).emit (g.missEmitted queueSize i)).emit (g.writebackEmitted queueSize i)
  finished := if FlushQueue.doDeq g.port.requests (g.port.headDone i) then g.finished + 1 else g.finished

def machine : Machine (OrderedPort params core) (MemoryPort.Input params) (Option (Request params)) where
  next := next queueSize
  output g _ := g.port.requests.head?

def init (lastGrant : Fin 2) : OrderedPort params core := ⟨.init lastGrant, .empty, 0⟩

/-- The requests that reached the port: the finished ones and the one that is shown. -/
def reached : List (Nat × Request params) := g.log.passed.take (g.finished + 1)

/-- It is the turn of the misses, and both queues on the way of a read have a place. -/
def MissTurn : Prop :=
  g.port.cache.lastGrant = 1 ∧ g.port.requests.length < queueSize ∧
    g.port.cache.refillQueue.length < params.refillQueueSize

/-- When its turn comes, the oldest miss has no earlier writeback of its block beside it. -/
def NoOvertake : Prop :=
  g.MissTurn queueSize → ∀ miss ∈ g.port.cache.missRequestO,
    ∀ e ∈ g.log.older (ofKind false), e.2.addr ≠ miss.addr

instance : Decidable (g.NoOvertake queueSize) :=
  inferInstanceAs (Decidable (_ ∧ _ ∧ _ → ∀ miss ∈ g.port.cache.missRequestO,
    ∀ e ∈ g.log.older (ofKind false), e.2.addr ≠ miss.addr))

/-- Every read that reached the port did so after the writebacks of its block emitted before it. -/
def PortInOrder : Prop := Log.InOrder WritesBlock g.log.emitted g.reached

variable {g} {i}

def queued (bank : DataBank params.databankParameter core) (wV : Bool) : List (Request params) :=
  if wV then bank.s2WritebackRequestR.map BackendRequestMerger.writeRequestConverted
  else bank.s2MissRequestR.map BackendRequestMerger.readRequestConverted

/-- The log and the hardware: what waits in it is what the two queues hold, what passed
is what the port finished and what its queue holds. -/
structure Tracked (g : OrderedPort params core) : Prop where
  numbered : g.log.Numbered
  waiting : ∀ wV, (g.log.waiting.filter fun e => ofKind wV e.2).map Prod.snd = queued g.port.cache.bank wV
  passed : (g.log.passed.drop g.finished).map Prod.snd = g.port.requests
  finished_le : g.finished ≤ g.log.passed.length

end OrderedPort

namespace BaseCache

variable {c : BaseCache params core} {i : Input params}

theorem filter_write (b : Bool) (writeback : Option (WriteBackRequest params.databankParameter)) :
    (writeback.map BackendRequestMerger.writeRequestConverted).filter (ofKind b) =
      if b then writeback.map BackendRequestMerger.writeRequestConverted else none := by
  cases writeback <;> cases b <;> rfl

theorem filter_read (b : Bool) (miss : Option (MissRequest params.databankParameter)) :
    (miss.map BackendRequestMerger.readRequestConverted).filter (ofKind b) =
      if b then none else miss.map BackendRequestMerger.readRequestConverted := by
  cases miss <;> cases b <;> rfl

/-- The request at the memory port is the oldest miss when the refill queue has a place for it
and a writeback was served last or none waits. -/
theorem axiReq_eq : c.axiReq i =
    if c.missRequestO.isSome = true ∧ c.refillQueue.length < params.refillQueueSize ∧
        (c.lastGrant = 1 ∨ c.writebackRequestO = none) then
      c.missRequestO.map BackendRequestMerger.readRequestConverted
    else c.writebackRequestO.map BackendRequestMerger.writeRequestConverted := by
  have hRoom : c.refillEnqReady i = decide (c.refillQueue.length < params.refillQueueSize) := Bool.or_false _
  rw [axiReq, RRArbiter.outValid, RRArbiter.chosen_two]
  simp only [mergerValids, BackendRequestMerger.valids, hRoom]
  cases c.missRequestO <;> cases c.writebackRequestO <;>
    by_cases hPlace : c.refillQueue.length < params.refillQueueSize <;>
    by_cases hGrant : c.lastGrant = 1 <;> simp [hPlace, hGrant]

theorem missFire_eq : (c.missFire i).map BackendRequestMerger.readRequestConverted =
    if i.axiReqReady then (c.axiReq i).filter (ofKind false) else none := by
  cases hReady : i.axiReqReady with
  | false => simp [missFire, bankInput, mergerReady, hReady]
  | true =>
    rw [if_pos rfl, axiReq]
    cases hValid : c.mergerValids i 0 with
    | true =>
      have hGrant := RRArbiter.chosen_eq_iff_grant c.lastGrant hValid
      have hEnq : c.refillEnqReady i = true := by
        simp only [mergerValids, BackendRequestMerger.valids, if_pos, Bool.and_eq_true] at hValid
        exact hValid.2
      by_cases hChosen : RRArbiter.chosen (c.mergerValids i) c.lastGrant = 0
      · have hOut : RRArbiter.outValid (c.mergerValids i) c.lastGrant = true := by
          rw [RRArbiter.outValid, hChosen, hValid]
        rw [if_pos hOut, if_pos hChosen, filter_read, missFire, bankInput]
        simp [hEnq, mergerReady, hGrant.mp hChosen, hReady]
      · have hNot : RRArbiter.grant (c.mergerValids i) c.lastGrant 0 = false := by
          simpa using fun hGranted => hChosen (hGrant.mpr hGranted)
        rw [if_neg hChosen, missFire, bankInput]
        simp only [hEnq, mergerReady, hNot, Bool.false_and, Bool.and_false, Bool.false_eq_true, if_false,
          Option.map_none]
        cases RRArbiter.outValid (c.mergerValids i) c.lastGrant
        · rfl
        · exact (filter_write false _).symm
    | false =>
      have hNone : c.missFire i = none := by
        simp only [mergerValids, BackendRequestMerger.valids, if_pos, Bool.and_eq_false_iff] at hValid
        rcases hValid with hMiss | hEnq
        · rw [Option.isSome_eq_false_iff, Option.isNone_iff_eq_none] at hMiss
          rw [missFire, hMiss, ite_self]
        · simp [missFire, bankInput, hEnq]
      rw [hNone, Option.map_none]
      by_cases hChosen : RRArbiter.chosen (c.mergerValids i) c.lastGrant = 0
      · have hOut : RRArbiter.outValid (c.mergerValids i) c.lastGrant = false := by
          rw [RRArbiter.outValid, hChosen, hValid]
        rw [hOut]
        rfl
      · rw [if_neg hChosen]
        cases RRArbiter.outValid (c.mergerValids i) c.lastGrant
        · rfl
        · exact (filter_write false _).symm

theorem writebackFire_eq : (if (c.bankInput i).writebackReady then c.writebackRequestO else none).map
      BackendRequestMerger.writeRequestConverted =
    if i.axiReqReady then (c.axiReq i).filter (ofKind true) else none := by
  cases hReady : i.axiReqReady with
  | false => simp [bankInput, mergerReady, hReady]
  | true =>
    rw [if_pos rfl, axiReq]
    have hTwo : ∀ port : Fin 2, port ≠ 0 → port = 1 := by decide
    cases hValid : c.mergerValids i 1 with
    | true =>
      have hGrant := RRArbiter.chosen_eq_iff_grant c.lastGrant hValid
      by_cases hChosen : RRArbiter.chosen (c.mergerValids i) c.lastGrant = 0
      · have hNot : RRArbiter.grant (c.mergerValids i) c.lastGrant 1 = false := by
          rw [← Bool.not_eq_true, ← hGrant, hChosen]
          decide
        rw [if_pos hChosen, bankInput]
        simp only [mergerReady, hNot, Bool.false_and, Bool.false_eq_true, if_false, Option.map_none]
        cases RRArbiter.outValid (c.mergerValids i) c.lastGrant
        · rfl
        · exact (filter_read true _).symm
      · have hOne := hTwo _ hChosen
        have hOut : RRArbiter.outValid (c.mergerValids i) c.lastGrant = true := by
          rw [RRArbiter.outValid, hOne, hValid]
        rw [if_pos hOut, if_neg hChosen, filter_write, bankInput]
        simp [mergerReady, hGrant.mp hOne, hReady]
    | false =>
      have hNone : c.writebackRequestO = none := by
        simpa [mergerValids, BackendRequestMerger.valids] using hValid
      rw [hNone, ite_self, Option.map_none]
      by_cases hChosen : RRArbiter.chosen (c.mergerValids i) c.lastGrant = 0
      · rw [if_pos hChosen]
        cases RRArbiter.outValid (c.mergerValids i) c.lastGrant
        · rfl
        · exact (filter_read true _).symm
      · have hOut : RRArbiter.outValid (c.mergerValids i) c.lastGrant = false := by
          rw [RRArbiter.outValid, hTwo _ hChosen, hValid]
        rw [hOut]
        rfl

end BaseCache

namespace OrderedPort

variable {g : OrderedPort params core} {i : MemoryPort.Input params}

def drained (g : OrderedPort params core) (queueSize : Nat) (i : MemoryPort.Input params) (wV : Bool) : Bool :=
  if wV then (g.bankInput queueSize i).writebackReady else (g.bankInput queueSize i).missReady

def sent (g : OrderedPort params core) (queueSize : Nat) (i : MemoryPort.Input params) (wV : Bool) :
    Option (Request params) :=
  if wV then g.writebackEmitted queueSize i else g.missEmitted queueSize i

variable (queueSize) (g) (i) in
theorem merged_filter (wV : Bool) : (g.port.merged queueSize i).filter (ofKind wV) =
    if g.drained queueSize i wV then (queued g.port.cache.bank wV).head? else none := by
  have hMiss := BaseCache.missFire_eq (c := g.port.cache) (i := g.port.cacheInput queueSize i)
  have hWriteback := BaseCache.writebackFire_eq (c := g.port.cache) (i := g.port.cacheInput queueSize i)
  have hMerged : (g.port.merged queueSize i).filter (ofKind wV) =
      if (g.port.cacheInput queueSize i).axiReqReady then
        (g.port.cache.axiReq (g.port.cacheInput queueSize i)).filter (ofKind wV) else none := by
    rw [MemoryPort.merged, MemoryPort.cacheInput]
    cases g.port.reqReady queueSize i <;> rfl
  rw [hMerged]
  cases wV with
  | false =>
    rw [← hMiss, BaseCache.missFire, BaseCache.missRequestO, drained, if_neg Bool.false_ne_true, queued,
      if_neg Bool.false_ne_true, List.head?_map]
    exact apply_ite (Option.map _) _ _ _
  | true =>
    rw [← hWriteback, BaseCache.writebackRequestO, drained, if_pos rfl, queued, if_pos rfl, List.head?_map]
    exact apply_ite (Option.map _) _ _ _

variable (queueSize) (g) (i) in
theorem queued_conserves (wV : Bool) :
    ((g.port.merged queueSize i).filter (ofKind wV)).toList ++
        queued (g.next queueSize i).port.cache.bank wV =
      queued g.port.cache.bank wV ++ (g.sent queueSize i wV).toList := by
  rw [merged_filter]
  cases wV with
  | false =>
    have hQueue := congrArg (List.map BackendRequestMerger.readRequestConverted)
      (DataBank.missOut_conserves (cacheUpdateFunction _) g.port.cache.bank (g.bankInput queueSize i))
    rw [List.map_append, List.map_append, ← Option.toList_map, ← Option.toList_map] at hQueue
    simp only [DataBank.output, FlushQueue.deqBits_none] at hQueue
    simp only [drained, queued, sent, if_neg Bool.false_ne_true, List.head?_map, missEmitted]
    rw [← hQueue]
    cases (g.bankInput queueSize i).missReady <;> rfl
  | true =>
    have hQueue := congrArg (List.map BackendRequestMerger.writeRequestConverted)
      (DataBank.writebackOut_conserves (cacheUpdateFunction _) g.port.cache.bank (g.bankInput queueSize i))
    rw [List.map_append, List.map_append, ← Option.toList_map, ← Option.toList_map] at hQueue
    simp only [DataBank.output, FlushQueue.deqBits_none] at hQueue
    simp only [drained, queued, sent, if_pos, List.head?_map, writebackEmitted]
    rw [← hQueue]
    cases (g.bankInput queueSize i).writebackReady <;> rfl

theorem sent_filter (wV : Bool) :
    ((g.missEmitted queueSize i).filter (ofKind wV)).toList ++
        ((g.writebackEmitted queueSize i).filter (ofKind wV)).toList =
      (g.sent queueSize i wV).toList := by
  rw [missEmitted, writebackEmitted, BaseCache.filter_read, BaseCache.filter_write]
  cases wV <;> simp [sent, missEmitted, writebackEmitted]

theorem Tracked.served (h : g.Tracked) {request : Request params} (hMerged : g.port.merged queueSize i = some request) :
    (g.log.waiting.find? fun e => ofKind request.wV e.2).map Prod.snd = some request := by
  have hFilter := merged_filter queueSize g i request.wV
  rw [hMerged] at hFilter
  rw [← List.head?_filter, ← List.head?_map, h.waiting]
  cases hDrained : g.drained queueSize i request.wV with
  | false => simp [Option.filter, hDrained] at hFilter
  | true => simpa [Option.filter, hDrained] using hFilter.symm

variable (queueSize) (i) in
theorem Tracked.passed_conserves (h : g.Tracked) (wV : Bool) :
    ((g.port.merged queueSize i).filter (ofKind wV)).toList ++
        ((g.nextPassed queueSize i).waiting.filter fun e => ofKind wV e.2).map Prod.snd =
      (g.log.waiting.filter fun e => ofKind wV e.2).map Prod.snd := by
  rw [nextPassed]
  cases hMerged : g.port.merged queueSize i with
  | none => rfl
  | some request =>
    by_cases hKind : request.wV = wV
    · subst hKind
      have hPass := congrArg (List.map Prod.snd) (g.log.pass_conserves (ofKind request.wV))
      rw [List.map_append, ← Option.toList_map, h.served hMerged] at hPass
      simpa [Option.filter] using hPass
    · have hOther : ofKind wV request = false := beq_eq_false_iff_ne.mpr hKind
      rw [Option.filter, hOther]
      refine congrArg (List.map Prod.snd) (Log.pass_filter_other ?_)
      intro a hPick
      have hEq : a.wV = request.wV := beq_iff_eq.mp hPick
      exact beq_eq_false_iff_ne.mpr (hEq ▸ hKind)

variable (queueSize) (i) in
theorem numbered_nextPassed (h : g.log.Numbered) : (g.nextPassed queueSize i).Numbered := by
  rw [nextPassed]
  cases g.port.merged queueSize i with
  | none => exact h
  | some request => exact h.pass _

variable (queueSize) (i) in
theorem Tracked.nextPassed_passed (h : g.Tracked) :
    ∃ new : List (Nat × Request params), (g.nextPassed queueSize i).passed = g.log.passed ++ new ∧
      new.map Prod.snd = (g.port.merged queueSize i).toList := by
  rw [nextPassed]
  cases hMerged : g.port.merged queueSize i with
  | none => exact ⟨[], (List.append_nil _).symm, rfl⟩
  | some request =>
    refine ⟨(g.log.waiting.find? fun e => ofKind request.wV e.2).toList, rfl, ?_⟩
    rw [← Option.toList_map, h.served hMerged]

theorem Tracked.finished_lt (h : g.Tracked) (hDone : FlushQueue.doDeq g.port.requests (g.port.headDone i) = true) :
    g.finished + 1 ≤ g.log.passed.length := by
  by_contra hLess
  have hNil : g.log.passed.drop g.finished = [] := List.drop_eq_nil_of_le (by omega)
  have hMap := h.passed
  rw [hNil, List.map_nil] at hMap
  rw [FlushQueue.doDeq, ← hMap] at hDone
  cases hDone

theorem Tracked.next (h : g.Tracked) : (g.next queueSize i).Tracked where
  numbered := ((numbered_nextPassed queueSize i h.numbered).emit _).emit _
  waiting wV := by
    have hLog := h.passed_conserves queueSize i wV
    have hQueue := queued_conserves queueSize g i wV
    rw [← h.waiting wV, ← hLog, List.append_assoc, List.append_cancel_left_eq] at hQueue
    rw [hQueue, ← sent_filter, ← List.append_assoc, OrderedPort.next,
      Log.emit_filter, Log.emit_filter]
  passed := by
    obtain ⟨new, hPassed, hNew⟩ := h.nextPassed_passed queueSize i
    have hMap : (g.log.passed.drop g.finished).map Prod.snd = g.port.requests := h.passed
    have hReady : (g.port.merged queueSize i).isSome = true → g.port.reqReady queueSize i = true := by
      rw [MemoryPort.merged]
      cases g.port.reqReady queueSize i <;> simp
    have hEnq : (if (queueOf queueSize).doEnq g.port.requests (g.port.merged queueSize i) (g.port.headDone i)
        then (g.port.merged queueSize i).toList else []) = new.map Prod.snd := by
      rw [hNew]
      cases hMerged : g.port.merged queueSize i with
      | none => rfl
      | some request =>
        rw [if_pos]
        have hTake := hReady (by rw [hMerged]; rfl)
        rw [MemoryPort.reqReady] at hTake
        rw [FlushQueue.doEnq, hTake]
        rfl
    simp only [OrderedPort.next, Log.emit_passed, hPassed, MemoryPort.next, FlushQueue.next, hEnq]
    by_cases hDone : FlushQueue.doDeq g.port.requests (g.port.headDone i) = true
    · rw [if_pos hDone, if_pos hDone, ← hMap, ← List.map_tail, List.tail_drop,
        List.drop_append_of_le_length (h.finished_lt hDone), List.map_append]
    · rw [if_neg hDone, if_neg hDone, ← hMap, List.drop_append_of_le_length h.finished_le, List.map_append]
  finished_le := by
    obtain ⟨new, hPassed, _⟩ := h.nextPassed_passed queueSize i
    simp only [OrderedPort.next, Log.emit_passed, hPassed, List.length_append]
    have hOld := h.finished_le
    by_cases hDone : FlushQueue.doDeq g.port.requests (g.port.headDone i) = true
    · have hMore := h.finished_lt hDone
      rw [if_pos hDone]
      omega
    · rw [if_neg hDone]
      omega

structure Ordered (g : OrderedPort params core) : Prop extends g.Tracked where
  inOrder : Log.InOrder WritesBlock g.log.emitted g.log.passed

theorem Ordered.start (lastGrant : Fin 2) : (init lastGrant : OrderedPort params core).Ordered where
  numbered := .empty
  waiting wV := by cases wV <;> rfl
  passed := rfl
  finished_le := le_rfl
  inOrder before e after hSplit := by cases before <;> cases hSplit

theorem Tracked.queued_of_waiting (h : g.Tracked) {e : Nat × Request params} (he : e ∈ g.log.waiting) :
    e.2 ∈ queued g.port.cache.bank e.2.wV := by
  rw [← h.waiting]
  exact List.mem_map_of_mem (List.mem_filter.mpr ⟨he, ofKind_self _⟩)

/-- The merger serves a read with an earlier writeback of its block waiting exactly when that
is what the registers show at the turn of the misses. -/
theorem Tracked.overtakes_iff (h : g.Tracked) :
    (∃ request ∈ g.port.merged queueSize i, ∃ e ∈ g.log.older (ofKind request.wV), WritesBlock e.2 request) ↔
      ¬ g.NoOvertake queueSize := by
  have hReady : g.port.reqReady queueSize i = decide (g.port.requests.length < queueSize) := Bool.or_false _
  have hWrites : ∀ e ∈ g.log.older (ofKind false), e ∈ g.log.waiting ∧ e.2.wV = true := by
    intro e he
    exact ⟨(List.takeWhile_prefix _).subset he, by simpa [ofKind] using List.mem_takeWhile_imp he⟩
  simp only [MemoryPort.merged, hReady, decide_eq_true_eq, BaseCache.axiReq_eq, NoOvertake, MissTurn, not_forall,
    not_not, exists_prop]
  constructor
  · rintro ⟨request, hMerged, e, he, hWriter, hReader, hAddr⟩
    rw [hReader] at he
    obtain ⟨hWaiting, _⟩ := hWrites e he
    have hQueued := h.queued_of_waiting hWaiting
    rw [hWriter] at hQueued
    have hSome : g.port.cache.writebackRequestO ≠ none := by
      intro hNone
      rw [queued, if_pos rfl, List.head?_eq_none_iff.mp hNone] at hQueued
      cases hQueued
    split at hMerged
    · next hRoom =>
      split at hMerged
      · next hTurn =>
        obtain ⟨miss, hMiss, rfl⟩ := Option.map_eq_some_iff.mp hMerged
        exact ⟨⟨hTurn.2.2.resolve_right hSome, hRoom, hTurn.2.1⟩, miss, hMiss, e, he, hAddr⟩
      · obtain ⟨writeback, _, rfl⟩ := Option.map_eq_some_iff.mp hMerged
        cases hReader
    · cases hMerged
  · rintro ⟨⟨hGrant, hRoom, hPlace⟩, miss, hMiss, e, he, hAddr⟩
    refine ⟨BackendRequestMerger.readRequestConverted miss, ?_, e, he, (hWrites e he).2, rfl, hAddr⟩
    rw [if_pos hRoom, if_pos ⟨by rw [hMiss]; rfl, hPlace, .inl hGrant⟩, hMiss]
    rfl

variable (i) in
/-- What passes in a cycle keeps the order exactly when nothing is overtaken at the turn of the misses. -/
theorem Ordered.next_iff (h : g.Ordered) :
    Log.InOrder WritesBlock (g.next queueSize i).log.emitted (g.next queueSize i).log.passed ↔
      g.NoOvertake queueSize := by
  have hNumbered := numbered_nextPassed queueSize i h.numbered
  have hPassed : Log.InOrder WritesBlock (g.next queueSize i).log.emitted (g.next queueSize i).log.passed ↔
      Log.InOrder WritesBlock (g.nextPassed queueSize i).emitted (g.nextPassed queueSize i).passed :=
    (Log.inOrder_emit_iff (hNumbered.emit _) _).trans (Log.inOrder_emit_iff hNumbered _)
  rw [hPassed, ← not_iff_not, ← h.overtakes_iff (i := i), nextPassed]
  cases hMerged : g.port.merged queueSize i with
  | none => simpa using h.inOrder
  | some request =>
    obtain ⟨e, he, rfl⟩ := Option.map_eq_some_iff.mp (h.served hMerged)
    simp only [Log.inOrder_pass_iff h.numbered h.inOrder, he, Option.mem_some_iff, exists_eq_left', not_forall, not_not,
      exists_prop]

theorem Ordered.next (h : g.Ordered) (hRule : g.NoOvertake queueSize) : (g.next queueSize i).Ordered where
  toTracked := h.toTracked.next
  inOrder := (h.next_iff i).mpr hRule

end OrderedPort

/-- In a run in which the oldest miss, whenever its turn comes, has no earlier writeback of its
block beside it, every read reaches the port after those writebacks; the port shows the last
request that reached it. -/
theorem port_in_order (lastGrant : Fin 2) {is : List (MemoryPort.Input params)}
    (hRule : (OrderedPort.machine queueSize).Along (fun g _ => g.NoOvertake queueSize)
      (.init lastGrant : OrderedPort params core) is) :
    let g := (OrderedPort.machine queueSize).run (.init lastGrant : OrderedPort params core) is
    g.PortInOrder ∧ (g.log.passed[g.finished]?).map Prod.snd = g.port.requests.head? := by
  have hStart : (OrderedPort.init lastGrant : OrderedPort params core).Ordered := .start lastGrant
  have hOrdered := hRule.invariant hStart fun _ _ h hStep => h.next hStep
  refine ⟨hOrdered.inOrder.take _, ?_⟩
  rw [← hOrdered.passed, List.head?_map, List.head?_drop]

section OneSet

/-- One set of two ways and blocks of 64 bytes, as the adaptor asks for. -/
abbrev portCache : CacheParams := ⟨0, 1, 2, 6, 4⟩

def quietPort : MemoryPort.Input portCache := ⟨⟨0, 0, 0⟩, false, 0, false, false, none, false, false⟩

def writeBlock (addr : portCache.PAddr) (data : portCache.Block) : MemoryPort.Input portCache :=
  { quietPort with pipelineReq := ⟨addr, data, BitVec.allOnes _⟩, pipelineValid := true }

def readBlock (addr : portCache.PAddr) : MemoryPort.Input portCache :=
  { quietPort with pipelineReq := ⟨addr, 0, 0⟩, pipelineValid := true }

def flushBlock (addr : portCache.PAddr) : MemoryPort.Input portCache :=
  { quietPort with flushAddr := addr, flushValid := true }

/-- The writebacks of two blocks fill the queue of the port while the memory is busy. A third
block is written, written back and read again: when the port has a place, it is the turn of
the misses, and the read reaches the port before the writeback of its block. -/
theorem read_overtakes :
    ¬ ((OrderedPort.machine 2).run (.init 0 : OrderedPort portCache (PseudoTreeLRUCore 1))
      ([writeBlock 0 1, quietPort, writeBlock 64 2, quietPort, flushBlock 0, flushBlock 64, writeBlock 128 3, quietPort,
        flushBlock 128, quietPort, readBlock 128, quietPort, quietPort, { quietPort with writeDone := true }] ++
        List.replicate 5 quietPort ++ [{ quietPort with writeDone := true }])).PortInOrder := by
  intro hOrder
  have hIn := hOrder [(0, ⟨0, 0, 0, 1, true, true, 1⟩), (1, ⟨1, 0, 0, 1, true, true, 2⟩)]
    (3, ⟨2, 0, 0, 0, false, false, 0⟩) [] (by decide +kernel) (2, ⟨2, 0, 0, 1, true, true, 3⟩)
    (by decide +kernel) (by decide) (by decide)
  exact absurd hIn (by decide)

theorem port_in_order_of_drained :
    let g := (OrderedPort.machine 2).run (.init 0 : OrderedPort portCache (PseudoTreeLRUCore 1))
      ([writeBlock 0 1, quietPort, writeBlock 64 2, quietPort, flushBlock 64, quietPort, readBlock 64] ++
        List.replicate 5 quietPort ++ [{ quietPort with writeDone := true }] ++ List.replicate 5 quietPort ++
        [{ quietPort with readData := some 2 }, { quietPort with readDone := true }, quietPort])
    g.PortInOrder ∧ (g.log.passed[g.finished]?).map Prod.snd = g.port.requests.head? :=
  port_in_order 0 (by decide +kernel)

end OneSet

end KnockoutKraken.Cache
