import KnockoutKraken.Cache.UniqueEntry

/-!
# Back-pressure

A run is compared with the one that takes the same requests in the same
cycles while the back end accepts everything. The bank word is taken as
soon as its request is in the second stage, not when the request leaves:
a request that has to wait loses its word and never leaves. So the two
runs agree exactly when no request ever waits.
-/

namespace KnockoutKraken.Cache

open Library Util

variable {p : DatabankParams} {core : LRUCore p.wayWidth} {update : UpdateFunction p}

namespace DataBank

/-- What a run leaves behind: the bank, the replies, and the misses and writebacks
sent out, the ones still in the output queues included. -/
structure Observed (p : DatabankParams) where
  bank : p.SetIndex → p.Way → CacheEntry p
  replies : List (FrontendReply p)
  misses : List (MissRequest p)
  writebacks : List (WriteBackRequest p)

variable (update) in
def observed (s : DataBank p core) (is : List (Input p)) : Observed p where
  bank := ((machine update).run s is).bram.mem
  replies := (machine update).emitted Output.reply s is
  misses := (machine update).emitted Output.miss s is ++ ((machine update).run s is).s2MissRequestR
  writebacks := (machine update).emitted Output.writeback s is ++ ((machine update).run s is).s2WritebackRequestR

/-- The same lines in a cycle without back-pressure; the request is offered only when it was taken. -/
def quiet (s : DataBank p core) (i : Input p) : Input p where
  request := i.request
  valid := (s.accepted i).isSome
  missReady := true
  writebackReady := true

variable (update) in
def unstalled (s : DataBank p core) : List (Input p) → List (Input p)
  | [] => []
  | i :: is => s.quiet i :: unstalled (s.next update i) is

/-- A request whose word has arrived finds room in both output queues. -/
def NoStall (s : DataBank p core) (i : Input p) : Prop :=
  s.bankRamReply.isSome = true → s2Queue.enqReady s.s2MissRequestR i.missReady = true ∧
    s2Queue.enqReady s.s2WritebackRequestR i.writebackReady = true

instance (s : DataBank p core) (i : Input p) : Decidable (s.NoStall i) :=
  inferInstanceAs (Decidable (s.bankRamReply.isSome = true → s2Queue.enqReady s.s2MissRequestR i.missReady = true ∧
    s2Queue.enqReady s.s2WritebackRequestR i.writebackReady = true))

def withQueues (s : DataBank p core) (misses : List (MissRequest p)) (writebacks : List (WriteBackRequest p)) :
    DataBank p core :=
  { s with s2MissRequestR := misses, s2WritebackRequestR := writebacks }

variable {s : DataBank p core} {i : Input p} (misses : List (MissRequest p)) (writebacks : List (WriteBackRequest p))

theorem pipelineStateReady1_quiet :
    (s.withQueues misses writebacks).pipelineStateReady1 (s.quiet i) = (s.bankRamReply.isSome == s.s1.isSome) := by
  simp only [pipelineStateReady1, FlushQueue.enqReady, s2Queue, quiet, Bool.and_true, Bool.or_true]
  rfl

theorem ready_of_noStall (hStall : s.NoStall i) :
    s.pipelineStateReady1 i = (s.bankRamReply.isSome == s.s1.isSome) ∨ s.s1FrontendRequestR = [] := by
  cases hWord : s.bankRamReply.isSome with
  | true =>
    obtain ⟨hMiss, hWriteback⟩ := hStall hWord
    exact .inl (by rw [pipelineStateReady1, hMiss, hWriteback, hWord, Bool.and_true, Bool.and_true])
  | false =>
    cases hList : s.s1FrontendRequestR with
    | nil => exact .inr rfl
    | cons q rest =>
      have hS1 : s.s1.isSome = true := by rw [s1, hList]; rfl
      exact .inl (by rw [pipelineStateReady1, hWord, hS1]; rfl)

theorem s1Fire_quiet (hStall : s.NoStall i) :
    (s.withQueues misses writebacks).s1Fire (s.quiet i) = s.s1Fire i := by
  rcases ready_of_noStall hStall with hReady | hEmpty
  · rw [s1Fire, s1Fire, pipelineStateReady1_quiet, hReady]
    rfl
  · have hNone : s.s1 = none := by rw [s1, hEmpty]; rfl
    have hNone' : (s.withQueues misses writebacks).s1 = none := hNone
    rw [s1Fire, s1Fire, hNone, hNone', ite_self, ite_self]

theorem pipelineStateReady0_quiet (hStall : s.NoStall i) :
    (s.withQueues misses writebacks).pipelineStateReady0 (s.quiet i) = s.pipelineStateReady0 i := by
  rcases ready_of_noStall hStall with hReady | hEmpty
  · rw [pipelineStateReady0, pipelineStateReady0, pipelineStateReady1_quiet, hReady]
    rfl
  · have hEmpty' : (s.withQueues misses writebacks).s1FrontendRequestR = [] := hEmpty
    rw [pipelineStateReady0, pipelineStateReady0, hEmpty, hEmpty']
    rfl

theorem accepted_quiet (hStall : s.NoStall i) :
    (s.withQueues misses writebacks).accepted (s.quiet i) = s.accepted i := by
  rw [accepted, pipelineStateReady0_quiet misses writebacks hStall]
  cases hAccepted : s.accepted i with
  | none => simp [quiet, hAccepted]
  | some q =>
    obtain ⟨hRequest, _, hReady⟩ := accepted_eq_some hAccepted
    simp [quiet, hAccepted, hReady, hRequest]

theorem s1_quiet (hStall : s.NoStall i) (enq : Option (BankRequest p)) :
    s1Queue.next s.s1FrontendRequestR enq ((s.withQueues misses writebacks).pipelineStateReady1 (s.quiet i)) =
      s1Queue.next s.s1FrontendRequestR enq (s.pipelineStateReady1 i) := by
  rcases ready_of_noStall hStall with hReady | hEmpty
  · rw [pipelineStateReady1_quiet, hReady]
  · rw [hEmpty]
    rfl

/-- Without a stall the two runs stay together, their output queues apart. -/
theorem next_quiet (hStall : s.NoStall i) :
    (s.withQueues misses writebacks).next update (s.quiet i) =
      (s.next update i).withQueues (s2Queue.next misses (s.missN i) true)
        (s2Queue.next writebacks (s.writebackN i) true) := by
  have hFire := s1Fire_quiet misses writebacks hStall
  have hAccepted := accepted_quiet misses writebacks hStall
  have hS1 := s1_quiet misses writebacks hStall (s.accepted i)
  rw [DataBank.next, missN, writebackN, hFire, hAccepted]
  simp only [DataBank.next, withQueues, mk.injEq, true_and]
  exact ⟨hS1, rfl, rfl, rfl, rfl, rfl, rfl⟩

theorem reply_quiet (hStall : s.NoStall i) :
    ((s.withQueues misses writebacks).output update (s.quiet i)).reply = (s.output update i).reply := by
  simp only [output, frontendReply]
  rw [s1Fire_quiet misses writebacks hStall]
  rfl

/-- A request whose word is gone waits in the second stage for ever. -/
structure Dead (s : DataBank p core) : Prop extends s.Shape where
  waiting : s.s1FrontendRequestR ≠ []
  wordless : s.readReplyValid = false

theorem Shape.s1_isSome_of_ne_nil (hWaiting : s.s1FrontendRequestR ≠ []) : s.s1.isSome = true := by
  cases hList : s.s1FrontendRequestR with
  | nil => exact absurd hList hWaiting
  | cons => rw [s1, hList]; rfl

theorem Dead.pipelineStateReady1 (h : s.Dead) : s.pipelineStateReady1 i = false := by
  rw [DataBank.pipelineStateReady1, h.bankRamReply, h.wordless, Shape.s1_isSome_of_ne_nil h.waiting]
  rfl

variable (update) in
theorem Shape.dead_next (h : s.Shape) (hWaiting : s.s1FrontendRequestR ≠ []) (hReady : s.pipelineStateReady1 i = false) :
    (s.next update i).Dead ∧ s.accepted i = none := by
  have hNone : s.accepted i = none := by
    have hLength := h.s1_length
    cases hList : s.s1FrontendRequestR with
    | nil => exact absurd hList hWaiting
    | cons q rest =>
      simp [accepted, pipelineStateReady0, hReady, hList, FlushQueue.enqReady, s1Queue]
  refine ⟨⟨h.next, ?_, ?_⟩, hNone⟩
  · change s1Queue.next _ _ _ ≠ []
    rw [hNone, hReady, FlushQueue.next_none]
    exact hWaiting
  · change (s.accepted i).isSome = false
    rw [hNone]
    rfl

theorem output_of_not_ready (hReady : s.pipelineStateReady1 i = false) : (s.output update i).reply = none := by
  simp [output, frontendReply, s1Fire, hReady]

theorem output_quiet_of_not_accepted (t : DataBank p core) (hNone : s.accepted i = none) :
    (t.output update (s.quiet i)).accepted = none := by
  have hValid : (s.quiet i).valid = false := by rw [quiet, hNone]; rfl
  simp [output, accepted, hValid]

theorem Dead.silent (h : s.Dead) (t : DataBank p core) (is : List (Input p)) :
    (machine update).emitted Output.reply s is = [] ∧ (machine update).emitted Output.accepted s is = [] ∧
      (machine update).emitted Output.accepted t (unstalled update s is) = [] := by
  induction is generalizing s t with
  | nil => exact ⟨rfl, rfl, rfl⟩
  | cons i is ih =>
    obtain ⟨hDead, hNone⟩ := h.toShape.dead_next update (i := i) h.waiting h.pipelineStateReady1
    obtain ⟨hReplies, hAccepted, hOther⟩ := ih hDead (t.next update (s.quiet i))
    have hReply : ((machine update).output s i).reply = none := output_of_not_ready h.pipelineStateReady1
    have hTaken : ((machine update).output s i).accepted = none := hNone
    have hTaken' : ((machine update).output t (s.quiet i)).accepted = none := output_quiet_of_not_accepted t hNone
    rw [unstalled, Machine.emitted_cons, Machine.emitted_cons, Machine.emitted_cons, hReply, hTaken, hTaken']
    exact ⟨hReplies, hAccepted, hOther⟩

variable (update) in
theorem Shape.stalled (h : s.Shape) (hStall : ¬ s.NoStall i) :
    s.s1FrontendRequestR ≠ [] ∧ s.pipelineStateReady1 i = false ∧
      ∃ reply, ((s.withQueues misses writebacks).output update (s.quiet i)).reply = some reply := by
  simp only [NoStall, Classical.not_imp, not_and_or, Bool.not_eq_true] at hStall
  obtain ⟨hWord, hFull⟩ := hStall
  have hValid : s.readReplyValid = true := h.bankRamReply.symm.trans hWord
  have hS1 := h.s1_isSome hValid
  refine ⟨h.s1_of_valid hValid, ?_, ?_⟩
  · rw [DataBank.pipelineStateReady1]
    rcases hFull with hFull | hFull <;> simp [hFull]
  · obtain ⟨q, hq⟩ := Option.isSome_iff_exists.mp hS1
    have hFire : (s.withQueues misses writebacks).s1Fire (s.quiet i) = some q := by
      rw [s1Fire, pipelineStateReady1_quiet, hWord, hS1]
      exact hq
    simp [output, frontendReply, hFire]

variable (update) in
theorem Shape.replies_unstalled (h : s.Shape) (is : List (Input p)) :
    (machine update).emitted Output.accepted (s.withQueues misses writebacks) (unstalled update s is) =
        (machine update).emitted Output.accepted s is ∧
      ((machine update).emitted Output.reply (s.withQueues misses writebacks) (unstalled update s is) =
        (machine update).emitted Output.reply s is ↔ (machine update).Along NoStall s is) := by
  induction is generalizing s misses writebacks with
  | nil => exact ⟨rfl, by simp [unstalled]⟩
  | cons i is ih =>
    rw [unstalled, Machine.emitted_cons, Machine.emitted_cons, Machine.emitted_cons, Machine.emitted_cons,
      Machine.along_cons]
    by_cases hStall : s.NoStall i
    · obtain ⟨hAccepted, hReplies⟩ := ih (s2Queue.next misses (s.missN i) true)
        (s2Queue.next writebacks (s.writebackN i) true) h.next
      have hNext : (machine update).next (s.withQueues misses writebacks) (s.quiet i) = _ := next_quiet misses writebacks hStall
      have hTaken : ((machine update).output (s.withQueues misses writebacks) (s.quiet i)).accepted =
          ((machine update).output s i).accepted := accepted_quiet misses writebacks hStall
      have hReply : ((machine update).output (s.withQueues misses writebacks) (s.quiet i)).reply =
          ((machine update).output s i).reply := reply_quiet misses writebacks hStall
      rw [hNext, hTaken, hReply]
      refine ⟨congrArg (_ ++ ·) hAccepted, ?_⟩
      rw [List.append_cancel_left_eq]
      exact hReplies.trans ⟨fun hRest => ⟨hStall, hRest⟩, And.right⟩
    · obtain ⟨hWaiting, hReady, reply, hReply⟩ :=
        h.stalled update misses writebacks hStall
      obtain ⟨hDead, hNone⟩ := h.dead_next update hWaiting hReady
      obtain ⟨hSilent, hRefused, hOther⟩ := hDead.silent ((s.withQueues misses writebacks).next update (s.quiet i)) is
      have hTaken : ((machine update).output s i).accepted = none := hNone
      have hTaken' : ((machine update).output (s.withQueues misses writebacks) (s.quiet i)).accepted = none :=
        output_quiet_of_not_accepted _ hNone
      have hReplyNone : ((machine update).output s i).reply = none := output_of_not_ready hReady
      have hReplySome : ((machine update).output (s.withQueues misses writebacks) (s.quiet i)).reply = some reply :=
        hReply
      rw [hTaken, hTaken', hReplyNone, hReplySome]
      refine ⟨hOther.trans hRefused.symm, iff_of_false ?_ fun hAlong => hStall hAlong.1⟩
      exact fun hEq => List.cons_ne_nil _ _ (hEq.trans hSilent)

/-- In runs without a stall both end in the same bank, and what their second stages sent
towards the output queues is the same. -/
theorem queues_unstalled {is : List (Input p)} (hAlong : (machine update).Along NoStall s is) :
    ∃ misses' writebacks' missed written,
      (machine update).run (s.withQueues misses writebacks) (unstalled update s is) =
        ((machine update).run s is).withQueues misses' writebacks' ∧
      (machine update).emitted Output.miss s is ++ ((machine update).run s is).s2MissRequestR =
        s.s2MissRequestR ++ missed ∧
      (machine update).emitted Output.miss (s.withQueues misses writebacks) (unstalled update s is) ++ misses' =
        misses ++ missed ∧
      (machine update).emitted Output.writeback s is ++ ((machine update).run s is).s2WritebackRequestR =
        s.s2WritebackRequestR ++ written ∧
      (machine update).emitted Output.writeback (s.withQueues misses writebacks) (unstalled update s is) ++
        writebacks' = writebacks ++ written := by
  induction is generalizing s misses writebacks with
  | nil => exact ⟨misses, writebacks, [], [], rfl, (List.append_nil _).symm, (List.append_nil _).symm,
      (List.append_nil _).symm, (List.append_nil _).symm⟩
  | cons i is ih =>
    obtain ⟨hStall, hRest⟩ := hAlong
    have hNext : (machine update).next (s.withQueues misses writebacks) (s.quiet i) = _ :=
      next_quiet misses writebacks hStall
    obtain ⟨misses', writebacks', missed, written, hRun, hMiss, hMiss', hWritten, hWritten'⟩ :=
      ih (s2Queue.next misses (s.missN i) true) (s2Queue.next writebacks (s.writebackN i) true) hRest
    have hFire := s1Fire_quiet misses writebacks hStall
    have hMissN : (s.withQueues misses writebacks).missN (s.quiet i) = s.missN i := by
      rw [missN, missN, hFire]
      rfl
    have hWritebackN : (s.withQueues misses writebacks).writebackN (s.quiet i) = s.writebackN i := by
      rw [writebackN, writebackN, hFire]
      rfl
    have hMissOut := missOut_conserves update (s.withQueues misses writebacks) (s.quiet i)
    have hWritebackOut := writebackOut_conserves update (s.withQueues misses writebacks) (s.quiet i)
    rw [hMissN, next_quiet misses writebacks hStall] at hMissOut
    rw [hWritebackN, next_quiet misses writebacks hStall] at hWritebackOut
    simp only [unstalled, Machine.run_cons, Machine.emitted_cons, hNext]
    exact ⟨misses', writebacks', (s.missN i).toList ++ missed, (s.writebackN i).toList ++ written, hRun,
      FlushQueue.conserves_trans (missOut_conserves update s i) hMiss,
      FlushQueue.conserves_trans hMissOut hMiss',
      FlushQueue.conserves_trans (writebackOut_conserves update s i) hWritten,
      FlushQueue.conserves_trans hWritebackOut hWritten'⟩

end DataBank

open DataBank

/-- The run without back-pressure takes the same requests; it ends in the same bank, with the
same replies, misses and writebacks, exactly when no request of the run ever waits. -/
theorem observed_unstalled_iff {s : DataBank p core} (hReach : (machine update).Reachable .init s) (is : List (Input p)) :
    (machine update).emitted Output.accepted s (unstalled update s is) =
        (machine update).emitted Output.accepted s is ∧
      (observed update s (unstalled update s is) = observed update s is ↔ (machine update).Along NoStall s is) := by
  have hShape : s.Shape := hReach.invariant .init fun _ _ h => h.next
  obtain ⟨hAccepted, hReplies⟩ := hShape.replies_unstalled update s.s2MissRequestR s.s2WritebackRequestR is
  refine ⟨hAccepted, fun hEq => hReplies.mp (congrArg Observed.replies hEq), fun hAlong => ?_⟩
  obtain ⟨misses', writebacks', missed, written, hRun, hMiss, hMiss', hWritten, hWritten'⟩ :=
    queues_unstalled s.s2MissRequestR s.s2WritebackRequestR hAlong
  have hReply := hReplies.mpr hAlong
  change (machine update).run s (unstalled update s is) = _ at hRun
  change (machine update).emitted Output.miss s (unstalled update s is) ++ _ = _ at hMiss'
  change (machine update).emitted Output.writeback s (unstalled update s is) ++ _ = _ at hWritten'
  simp only [observed, hRun, Observed.mk.injEq]
  exact ⟨rfl, hReply, hMiss'.trans hMiss.symm, hWritten'.trans hWritten.symm⟩

section TwoWays

def readWith (missReady : Bool) (addr : BitVec 2) : Input twoWays := ⟨.access addr 0 0 0 0 0, true, missReady, true⟩

def idleWith (missReady : Bool) : Input twoWays := ⟨.flush 0 0, false, missReady, true⟩

/-- Three reads miss while the miss queue is not drained: the third is never answered. -/
theorem third_miss_unanswered :
    let s : DataBank twoWays (PseudoTreeLRUCore 1) := .init
    let is := [readWith false 0, readWith false 1, readWith false 2, idleWith false, idleWith true, idleWith true]
    observed (cacheUpdateFunction twoWays) s (unstalled (cacheUpdateFunction twoWays) s is) ≠
      observed (cacheUpdateFunction twoWays) s is := by
  intro s is hEq
  have hReplies := congrArg (fun o => o.replies.length) hEq
  exact absurd hReplies (by decide +kernel)

theorem observed_unstalled_of_reset :
    let s : DataBank twoWays (PseudoTreeLRUCore 1) := .init
    let is := [readWith false 0, readWith false 1, idleWith false, idleWith true, readWith true 2, idleWith true]
    observed (cacheUpdateFunction twoWays) s (unstalled (cacheUpdateFunction twoWays) s is) =
      observed (cacheUpdateFunction twoWays) s is :=
  (observed_unstalled_iff ⟨[], rfl⟩ _).2.mpr (by decide +kernel)

end TwoWays

end KnockoutKraken.Cache
