import KnockoutKraken.Cache.BackEndOrder
import KnockoutKraken.Cache.Stall
import KnockoutKraken.Cache.Writeback

/-!
# Bursts of flushes

Flushes of distinct blocks enter a bank one behind the other and nothing
else does. As long as none of them has to wait, each takes its block out
of the bank, wherever it was, and a dirty block is on its way to the
memory port. What was sent is either written or still in a queue.
-/

namespace KnockoutKraken.Cache

open Library Util

variable {p : DatabankParams} {core : LRUCore p.wayWidth} {update : UpdateFunction p}

section Erased

variable {before mem : p.SetIndex → p.Way → CacheEntry p} {gone : List p.Addr} {addr : p.Addr}

def InOneWay (mem : p.SetIndex → p.Way → CacheEntry p) (addr : p.Addr) : Prop :=
  ∀ way way', InBank mem addr way → InBank mem addr way' → way = way'

instance (mem : p.SetIndex → p.Way → CacheEntry p) (addr : p.Addr) : Decidable (InOneWay mem addr) :=
  inferInstanceAs (Decidable (∀ _ _, _ → _ → _))

/-- The bank without some blocks: they are gone, and nothing else changed. -/
structure Erased (before mem : p.SetIndex → p.Way → CacheEntry p) (gone : List p.Addr) : Prop where
  absent : ∀ addr ∈ gone, ∀ way, ¬ InBank mem addr way
  kept : ∀ addr, addr ∉ gone → ∀ way, InBank before addr way → mem (setIndex addr) way = before (setIndex addr) way
  origin : ∀ set way, mem set way = before set way ∨ mem set way = SecondStage.flushEntry

theorem Erased.refl (before : p.SetIndex → p.Way → CacheEntry p) : Erased before before [] where
  absent _ h := by cases h
  kept _ _ _ _ := rfl
  origin _ _ := .inl rfl

theorem Erased.inBank_before (h : Erased before mem gone) {way : p.Way} (hIn : InBank mem addr way) :
    InBank before addr way := by
  rcases h.origin (setIndex addr) way with hSame | hFlushed
  · rwa [InBank, Holds, hSame] at hIn
  · rw [InBank, Holds, hFlushed] at hIn
    cases hIn

theorem Erased.inBank_iff (h : Erased before mem gone) (hAddr : addr ∉ gone) (way : p.Way) :
    InBank mem addr way ↔ InBank before addr way := by
  refine ⟨h.inBank_before, fun hIn => ?_⟩
  rw [InBank, Holds, h.kept addr hAddr way hIn]
  exact hIn

theorem Erased.inOneWay (h : Erased before mem gone) (hOne : InOneWay before addr) : InOneWay mem addr :=
  fun way way' hIn hIn' => hOne way way' (h.inBank_before hIn) (h.inBank_before hIn')

theorem Erased.skip (h : Erased before mem gone) (hNone : ∀ way, ¬ InBank mem addr way) :
    Erased before mem (gone ++ [addr]) where
  absent addr' hMem := by
    rcases List.mem_append.mp hMem with hGone | hNew
    · exact h.absent addr' hGone
    · rw [List.mem_singleton.mp hNew]
      exact hNone
  kept addr' hNot := h.kept addr' fun hGone => hNot (List.mem_append_left _ hGone)
  origin := h.origin

theorem Erased.erase (hSets : p.setWidth ≠ 1) (h : Erased before mem gone) (hOne : InOneWay mem addr) {way : p.Way}
    (hIn : InBank mem addr way) :
    Erased before (BankWriteRequest.applyTo ⟨setIndex addr, way, SecondStage.flushEntry⟩ mem) (gone ++ [addr]) where
  absent addr' hMem way' hIn' := by
    by_cases hPlace : setIndex addr' = setIndex addr → way' ≠ way
    · rw [inBank_applyTo_of_ne hPlace] at hIn'
      rcases List.mem_append.mp hMem with hGone | hNew
      · exact h.absent addr' hGone way' hIn'
      · rw [List.mem_singleton] at hNew
        subst hNew
        exact hPlace rfl (hOne way' way hIn' hIn)
    · obtain ⟨hSet, hWay⟩ := Classical.not_imp.mp hPlace
      rw [not_not.mp hWay, inBank_applyTo_self hSet] at hIn'
      cases hIn'
  kept addr' hNot way' hIn' := by
    have hOff : setIndex addr' = setIndex addr → way' ≠ way := by
      rintro hSet rfl
      -- the place holds one block only
      have hBefore := h.inBank_before hIn
      rw [InBank, ← hSet, Holds, (show (before (setIndex addr') way').key = _ from hIn'), Option.some.injEq] at hBefore
      exact hNot (List.mem_append_right _ (List.mem_singleton.mpr ((addr_eq_iff hSets _ _).mpr ⟨hBefore, hSet⟩)))
    rw [applyTo_of_ne hOff]
    exact h.kept addr' (fun hGone => hNot (List.mem_append_left _ hGone)) way' hIn'
  origin set way' := by
    by_cases hPlace : set = setIndex addr → way' ≠ way
    · rw [applyTo_of_ne hPlace]
      exact h.origin set way'
    · obtain ⟨rfl, hWay⟩ := Classical.not_imp.mp hPlace
      rw [not_not.mp hWay]
      exact .inr applyTo_self

/-- Under this tag the word shows what the row holds. -/
def AgreeOn (tag : p.Tag) (word row : p.Way → CacheEntry p) : Prop :=
  ∀ way, Holds CacheEntry.key word tag way ∨ Holds CacheEntry.key row tag way → word way = row way

theorem AgreeOn.holds_iff {tag : p.Tag} {word row : p.Way → CacheEntry p} (h : AgreeOn tag word row) (way : p.Way) :
    Holds CacheEntry.key word tag way ↔ Holds CacheEntry.key row tag way := by
  constructor
  · intro hHolds
    rwa [Holds, ← h way (.inl hHolds)]
  · intro hHolds
    rwa [Holds, h way (.inr hHolds)]

/-- The word read before a flush still shows what the bank holds of another block. -/
theorem AgreeOn.erase (hSets : p.setWidth ≠ 1) {other : p.Addr} (hNe : other ≠ addr) {way : p.Way}
    (hIn : InBank mem addr way) :
    AgreeOn (getTagFromAddress other) (mem (setIndex other))
      (BankWriteRequest.applyTo ⟨setIndex addr, way, SecondStage.flushEntry⟩ mem (setIndex other)) := by
  intro way' hHolds
  by_cases hPlace : setIndex other = setIndex addr → way' ≠ way
  · exact (applyTo_of_ne hPlace).symm
  · obtain ⟨hSet, hWay⟩ := Classical.not_imp.mp hPlace
    rw [not_not.mp hWay, hSet] at hHolds
    rcases hHolds with hWord | hRow
    · rw [Holds, (show (mem (setIndex addr) way).key = _ from hIn), Option.some.injEq] at hWord
      exact absurd ((addr_eq_iff hSets other addr).mpr ⟨hWord.symm, hSet⟩) hNe
    · rw [Holds, applyTo_self] at hRow
      cases hRow

end Erased

namespace SecondStage

variable {x : SecondStage p} {row : p.Way → CacheEntry p}

/-- A flush that sees its block does one of two things: it clears the only entry that holds the
block and sends the data off when they are dirty, or it finds the block nowhere. -/
theorem flush_cases (hFlush : x.request.flushV = true) (hAlone : x.request.FlushAlone)
    (hFresh : x.s2WritingMatched = none) (hAgree : AgreeOn x.tag x.bankRamReply row)
    (hOne : ∀ way way', Holds CacheEntry.key row x.tag way → Holds CacheEntry.key row x.tag way' → way = way') :
    (∃ way, Holds CacheEntry.key row x.tag way ∧
      x.bankRamWriteRequestO update = some ⟨setIndex x.request.addr, way, flushEntry⟩ ∧
      x.writebackRequest = if (row way).d then some ⟨x.request.addr, (row way).data, true⟩ else none) ∨
    ((∀ way, ¬ Holds CacheEntry.key row x.tag way) ∧ x.bankRamWriteRequestO update = none ∧
      x.writebackRequest = none) := by
  have hMost : AtMostOne x.matchBits := fun way way' hWay hWay' =>
    hOne way way' ((hAgree.holds_iff way).mp ((x.matchBits_iff way).mp hWay))
      ((hAgree.holds_iff way').mp ((x.matchBits_iff way').mp hWay'))
  have hHitV : x.hitV = (popCount x.matchBits == 1) := by rw [hitV, hFresh]
  cases hHit : x.hitV with
  | true =>
    rw [hHitV, beq_iff_eq, hMost.popCount_eq_one_iff] at hHit
    obtain ⟨way, hWay⟩ := hHit
    have hWhich : x.matchWhich = way := ohToUInt_of_atMostOne hMost hWay
    have hHolds := (x.matchBits_iff way).mp hWay
    have hHit : x.hitV = true := by rw [hHitV, beq_iff_eq, hMost.popCount_eq_one_iff]; exact ⟨way, hWay⟩
    have hEntry : x.hitEntry = row way := by
      rw [hitEntry, hFresh, hWhich]
      exact hAgree way (.inl hHolds)
    refine .inl ⟨way, (hAgree.holds_iff way).mp hHolds, ?_, ?_⟩
    · rw [bankWrite_of_flush update hAlone hFlush hHit, hWhich]
    · rw [writebackRequest, evictionWbReq_of_hit hHit, Option.none_or, flushWbReq_of_hit hHit hFlush, hEntry]
  | false =>
    have hWrite : x.bankRamWriteRequestO update = none := by
      simp [bankRamWriteRequestO, fullWritingRequest, frontendWriteToBank, hHit, fullWritingV_of_flush hAlone hFlush]
    refine .inr ⟨fun way hHolds => ?_, hWrite, writebackRequest_of_not_bankWrite hAlone hWrite⟩
    have hWay := (x.matchBits_iff way).mpr ((hAgree.holds_iff way).mpr hHolds)
    rw [hHitV, hMost.popCount_eq_one_iff.mpr ⟨way, hWay⟩] at hHit
    cases hHit

theorem missRequest_of_flush (hFlush : x.request.flushV = true) : x.missRequest = none := by
  simp [missRequest, hFlush]

end SecondStage

namespace DataBank

def inFlight (s : DataBank p core) : List p.Addr := s.s1FrontendRequestR.map fun q => q.packet.addr

/-- Only flushes were accepted since the bank was `before`: those of `gone` went through the second stage. -/
structure Flushing (before : p.SetIndex → p.Way → CacheEntry p) (gone : List p.Addr) (s : DataBank p core) :
    Prop extends s.Shape where
  erased : Erased before s.bram.mem gone
  context : ∀ c, s.s2BankWritingR = some c → c.addr ∈ gone
  noMiss : s.s2MissRequestR = []
  stage : ∀ q ∈ s.s1FrontendRequestR, q.packet.flushV = true ∧ q.packet.addr ∉ gone ∧ s.readReplyValid = true ∧
    AgreeOn (getTagFromAddress q.packet.addr) s.bram.ramDataA (s.bram.mem (setIndex q.packet.addr))

variable {before : p.SetIndex → p.Way → CacheEntry p} {gone : List p.Addr} {s : DataBank p core} {i : Input p}

theorem Flushing.start (hShape : s.Shape) (hS1 : s.s1FrontendRequestR = []) (hContext : s.s2BankWritingR = none)
    (hMiss : s.s2MissRequestR = []) : Flushing s.bram.mem [] s where
  toShape := hShape
  erased := .refl _
  context c hc := by
    rw [hContext] at hc
    cases hc
  noMiss := hMiss
  stage q hq := by
    rw [hS1] at hq
    cases hq

theorem Flushing.s1 (h : Flushing before gone s) :
    s.s1FrontendRequestR = [] ∨ ∃ q, s.s1FrontendRequestR = [q] ∧ s.s1 = some q := by
  have hLength := h.s1_length
  cases hList : s.s1FrontendRequestR with
  | nil => exact .inl rfl
  | cons q rest =>
    rw [hList, List.length_cons] at hLength
    have hRest : rest = [] := List.eq_nil_of_length_eq_zero (by omega)
    exact .inr ⟨q, by rw [hRest], (s1_eq_some_iff q).mpr (by rw [hList, List.head?_cons])⟩

theorem Flushing.pipelineStateReady1 (h : Flushing before gone s) (hStall : s.NoStall i) {q : BankRequest p}
    (hS1 : s.s1FrontendRequestR = [q]) : s.pipelineStateReady1 i = true := by
  have hValid : s.readReplyValid = true := (h.stage q (by rw [hS1]; exact List.mem_singleton_self q)).2.2.1
  have hWord : s.bankRamReply.isSome = true := h.bankRamReply.trans hValid
  rcases ready_of_noStall hStall with hReady | hEmpty
  · rw [hReady, hWord, h.s1_isSome hValid]
    rfl
  · rw [hEmpty] at hS1
    cases hS1

theorem Flushing.pipelineStateReady0 (h : Flushing before gone s) (hStall : s.NoStall i) :
    s.pipelineStateReady0 i = true := by
  rcases h.s1 with hEmpty | ⟨q, hS1, _⟩
  · rw [DataBank.pipelineStateReady0, hEmpty]
    rfl
  · rw [DataBank.pipelineStateReady0, h.pipelineStateReady1 hStall hS1]
    simp [FlushQueue.enqReady, s1Queue]

variable (update) in
theorem Flushing.s1_next (h : Flushing before gone s) (hStall : s.NoStall i) :
    (s.next update i).s1FrontendRequestR = (s.accepted i).toList := by
  change s1Queue.next s.s1FrontendRequestR (s.accepted i) (s.pipelineStateReady1 i) = _
  rcases h.s1 with hEmpty | ⟨q, hS1, _⟩
  · rw [hEmpty]
    cases s.accepted i with
    | none => exact FlushQueue.next_nil_none _
    | some q => exact FlushQueue.next_single rfl rfl (Nat.zero_le _) rfl rfl
  · rw [h.pipelineStateReady1 hStall hS1]
    exact FlushQueue.next_of_deqReady rfl h.s1_length _ rfl

variable (update) in
theorem Flushing.stage_cases (h : Flushing before gone s) {q : BankRequest p} (hS1 : s.s1FrontendRequestR = [q])
    (hOne : InOneWay before q.packet.addr) :
    (∃ way, InBank s.bram.mem q.packet.addr way ∧
      (s.secondStage q).bankRamWriteRequestO update = some ⟨setIndex q.packet.addr, way, SecondStage.flushEntry⟩ ∧
      (s.secondStage q).writebackRequest = if (s.bram.mem (setIndex q.packet.addr) way).d then
        some ⟨q.packet.addr, (s.bram.mem (setIndex q.packet.addr) way).data, true⟩ else none) ∨
    ((∀ way, ¬ InBank s.bram.mem q.packet.addr way) ∧ (s.secondStage q).bankRamWriteRequestO update = none ∧
      (s.secondStage q).writebackRequest = none) := by
  obtain ⟨hFlush, hAddr, hValid, hAgree⟩ := h.stage q (by rw [hS1]; exact List.mem_singleton_self q)
  have hFresh : (s.secondStage q).s2WritingMatched = none := by
    cases hFwd : (s.secondStage q).s2WritingMatched with
    | none => rfl
    | some c =>
      obtain ⟨hContext, hEq⟩ := (SecondStage.s2WritingMatched_eq_some_iff c).mp hFwd
      exact absurd (hEq ▸ h.context c hContext) hAddr
  refine SecondStage.flush_cases hFlush q.flushAlone hFresh ?_ (h.erased.inOneWay hOne)
  change AgreeOn _ s.bankRamReplyBits _
  rw [h.bankRamReplyBits]
  exact hAgree

variable (update) (i) in
theorem Flushing.flushed (hSets : p.setWidth ≠ 1) (h : Flushing before gone s) {q : BankRequest p}
    (hS1 : s.s1FrontendRequestR = [q]) (hOne : InOneWay before q.packet.addr) :
    Erased before (s.next update i).bram.mem (gone ++ [q.packet.addr]) ∧
      ∀ other, other ≠ q.packet.addr → AgreeOn (getTagFromAddress other) (s.bram.mem (setIndex other))
        ((s.next update i).bram.mem (setIndex other)) := by
  have hSome : s.s1 = some q := (s1_eq_some_iff q).mpr (by rw [hS1, List.head?_cons])
  have hWrite : s.bankRamWriteRequest update = (s.secondStage q).bankRamWriteRequestO update :=
    congrArg (Option.bind · _) hSome
  rcases h.stage_cases update hS1 hOne with ⟨way, hIn, hStage, _⟩ | ⟨hNone, hStage, _⟩
  · rw [hStage] at hWrite
    rw [mem_next_of_some hWrite]
    exact ⟨h.erased.erase hSets (h.erased.inOneWay hOne) hIn, fun other hNe => .erase hSets hNe hIn⟩
  · rw [hStage] at hWrite
    rw [mem_next_of_none hWrite]
    exact ⟨h.erased.skip hNone, fun other _ way _ => rfl⟩

theorem Flushing.writebackN (h : Flushing before gone s) (hStall : s.NoStall i) {q : BankRequest p}
    (hS1 : s.s1FrontendRequestR = [q]) (hOne : InOneWay before q.packet.addr) {way : p.Way}
    (hIn : InBank before q.packet.addr way) (hDirty : (before (setIndex q.packet.addr) way).d = true) :
    s.writebackN i = some ⟨q.packet.addr, (before (setIndex q.packet.addr) way).data, true⟩ := by
  obtain ⟨_, hAddr, _⟩ := h.stage q (by rw [hS1]; exact List.mem_singleton_self q)
  have hNow := (h.erased.inBank_iff hAddr way).mpr hIn
  have hSame := h.erased.kept q.packet.addr hAddr way hIn
  have hSome : s.s1 = some q := (s1_eq_some_iff q).mpr (by rw [hS1, List.head?_cons])
  rw [DataBank.writebackN, s1Fire, h.pipelineStateReady1 hStall hS1, if_pos rfl, hSome, Option.bind_some]
  rcases h.stage_cases (cacheUpdateFunction p) hS1 hOne with ⟨way', hIn', _, hSent⟩ | ⟨hNone, _⟩
  · obtain rfl : way' = way := h.erased.inOneWay hOne way' way hIn' hNow
    rw [hSent, hSame, hDirty, if_pos rfl]
  · exact absurd hNow (hNone way)

theorem Flushing.missN (h : Flushing before gone s) : s.missN i = none := by
  rw [DataBank.missN, s1Fire]
  split
  · rcases h.s1 with hEmpty | ⟨q, hS1, hSome⟩
    · rw [DataBank.s1, hEmpty, FlushQueue.deqBits_nil rfl]
      rfl
    · rw [hSome, Option.bind_some]
      exact SecondStage.missRequest_of_flush (h.stage q (by rw [hS1]; exact List.mem_singleton_self q)).1
  · rfl

variable (update) in
/-- The bank after one cycle of a burst, and what a word read in it shows of a block that stays. -/
theorem Flushing.erased_next (hSets : p.setWidth ≠ 1) (h : Flushing before gone s)
    (hOne : ∀ addr ∈ s.inFlight, InOneWay before addr) :
    Erased before (s.next update i).bram.mem (gone ++ s.inFlight) ∧
      ∀ other ∉ s.inFlight, AgreeOn (getTagFromAddress other) (s.bram.mem (setIndex other))
        ((s.next update i).bram.mem (setIndex other)) := by
  rcases h.s1 with hEmpty | ⟨q, hS1, _⟩
  · have hNone : s.s1 = none := by rw [DataBank.s1, hEmpty, FlushQueue.deqBits_nil rfl]
    have hWrite : s.bankRamWriteRequest update = none := congrArg (Option.bind · _) hNone
    rw [mem_next_of_none hWrite, inFlight, hEmpty, List.map_nil, List.append_nil]
    exact ⟨h.erased, fun other _ way _ => rfl⟩
  · rw [inFlight, hS1, List.map_singleton] at hOne ⊢
    obtain ⟨hErased, hAgree⟩ := h.flushed update i hSets hS1 (hOne _ (List.mem_singleton_self _))
    exact ⟨hErased, fun other hNot => hAgree other fun hEq => hNot (List.mem_singleton.mpr hEq)⟩

variable (update) in
/-- One cycle of a burst: what was in front of the second stage is gone, and a new flush may be there. -/
theorem Flushing.next (hSets : p.setWidth ≠ 1) (h : Flushing before gone s) (hStall : s.NoStall i)
    (hOne : ∀ addr ∈ s.inFlight, InOneWay before addr)
    (hEnter : ∀ q, s.accepted i = some q → q.packet.flushV = true ∧ q.packet.addr ∉ gone ++ s.inFlight) :
    Flushing before (gone ++ s.inFlight) (s.next update i) := by
  obtain ⟨hErased, hAgree⟩ := h.erased_next update (i := i) hSets hOne
  refine ⟨h.toShape.next, hErased, ?_, ?_, ?_⟩
  · intro c hc
    obtain ⟨q, hSome, hContext⟩ := Option.bind_eq_some_iff.mp hc
    obtain ⟨_, hAddr, _⟩ := SecondStage.performs_of_s2BankWritingN hContext
    have hMem : q ∈ s.s1FrontendRequestR := List.mem_of_mem_head? ((s1_eq_some_iff q).mp hSome)
    exact List.mem_append_right _ (List.mem_map.mpr ⟨q, hMem, hAddr.symm⟩)
  · change s2Queue.next s.s2MissRequestR (s.missN i) i.missReady = []
    rw [h.noMiss, h.missN]
    exact FlushQueue.next_nil_none _
  · intro q hq
    rw [h.s1_next update hStall, Option.mem_toList] at hq
    obtain ⟨hFlush, hNot⟩ := hEnter q hq
    refine ⟨hFlush, hNot, Option.isSome_iff_exists.mpr ⟨q, hq⟩, ?_⟩
    rw [ramDataA_next, (accepted_eq_some hq).1]
    exact hAgree q.packet.addr fun hMem => hNot (List.mem_append_right _ hMem)

end DataBank

namespace MemoryPort

open Cache2AXIAdaptor OrderedPort

variable {params : CacheParams} {core : LRUCore params.wayWidth} {queueSize : Nat}

section Writes

variable (queueSize) (s : MemoryPort params core) (i : Input params)

def bankInput : DataBank.Input params.databankParameter := s.cache.bankInput (s.cacheInput queueSize i)

def writeFire : Option (Request params) := (s.requests.head?.filter (ofKind true)).filter fun _ => i.writeDone

/-- The writes on their way: in the queue of the port, then in the queue of the bank. -/
def outstanding : List (Request params) := s.requests.filter (ofKind true) ++ queued s.cache.bank true

def writeSent : Option (Request params) :=
  (s.cache.bank.writebackN (s.bankInput queueSize i)).map BackendRequestMerger.writeRequestConverted

variable {queueSize} {s} {i}

theorem merged_ready (hMerged : (s.merged queueSize i).isSome = true) : s.reqReady queueSize i = true := by
  rw [merged] at hMerged
  by_contra hNot
  rw [if_neg hNot] at hMerged
  cases hMerged

theorem filter_headDone : ((if s.headDone i then s.requests.head? else none).toList).filter (ofKind true) =
    (s.writeFire i).toList := by
  rw [headDone, writeFire]
  cases s.requests with
  | nil => rfl
  | cons request rest =>
    rw [Cache2AXIAdaptor.headDone.eq_def]
    cases hKind : request.wV <;> cases i.writeDone <;> cases i.readDone <;> simp [Option.filter, ofKind, hKind]

variable (queueSize) (s) (i) in
/-- A write leaves the queues when memory finishes it, and no other way. -/
theorem outstanding_next : (s.writeFire i).toList ++ (s.next queueSize i).outstanding =
    s.outstanding ++ (s.writeSent queueSize i).toList := by
  have hPort := @FlushQueue.next_conserves _ (queueOf queueSize) s.requests rfl (s.merged queueSize i) (s.headDone i)
    merged_ready
  have hPort := congrArg (List.filter (ofKind true)) hPort
  rw [FlushQueue.deqBits_none, List.filter_append, List.filter_append, filter_headDone] at hPort
  have hMerged : (s.merged queueSize i).toList.filter (ofKind true) =
      ((s.merged queueSize i).filter (ofKind true)).toList := by
    cases hSome : s.merged queueSize i with
    | none => rfl
    | some request => cases hKind : request.wV <;> simp [Option.filter, ofKind, hKind]
  have hBank := queued_conserves queueSize ⟨s, .empty, 0⟩ i true
  change _ ++ queued (s.next queueSize i).cache.bank true = _ ++ (s.writeSent queueSize i).toList at hBank
  rw [outstanding, outstanding, List.append_assoc, ← hBank, ← List.append_assoc, ← List.append_assoc, ← hMerged, ← hPort]
  rfl

theorem writeSent_of_empty (hS1 : s.cache.bank.s1FrontendRequestR = []) : s.writeSent queueSize i = none := by
  have hNone : s.cache.bank.s1 = none := by rw [DataBank.s1, hS1, FlushQueue.deqBits_nil rfl]
  rw [writeSent, DataBank.writebackN, DataBank.s1Fire, hNone, ite_self]
  rfl

theorem outstanding_next_nil (hS1 : s.cache.bank.s1FrontendRequestR = []) (hNone : s.outstanding = []) :
    (s.next queueSize i).outstanding = [] := by
  have hNext := outstanding_next queueSize s i
  rw [hNone, writeSent_of_empty hS1, Option.toList_none, List.append_nil, List.append_eq_nil_iff] at hNext
  exact hNext.2

/-- A bank that sends nothing has handed over its last writeback before the queue of the port runs empty. -/
theorem drained_next (hSize : 2 ≤ queueSize) (hS1 : s.cache.bank.s1FrontendRequestR = [])
    (hMiss : s.cache.bank.s2MissRequestR = []) (hEmpty : (s.next queueSize i).requests = []) :
    (s.next queueSize i).cache.bank.s2WritebackRequestR = [] := by
  have hNone : s.cache.bank.s1 = none := by rw [DataBank.s1, hS1, FlushQueue.deqBits_nil rfl]
  have hSent : s.cache.bank.writebackN (s.bankInput queueSize i) = none := by
    rw [DataBank.writebackN, DataBank.s1Fire, hNone, ite_self]
    rfl
  change DataBank.s2Queue.next s.cache.bank.s2WritebackRequestR (s.cache.bank.writebackN (s.bankInput queueSize i))
    (s.bankInput queueSize i).writebackReady = []
  rw [hSent]
  cases hQueue : s.cache.bank.s2WritebackRequestR with
  | nil => exact FlushQueue.next_nil_none _
  | cons writeback rest =>
    exfalso
    change (queueOf queueSize).next s.requests (s.merged queueSize i) (s.headDone i) = [] at hEmpty
    cases hReady : s.reqReady queueSize i with
    | true =>
      -- only writebacks wait, so the merger takes one, and it stays in the queue of the port
      have hValid : s.cache.mergerValids (s.cacheInput queueSize i) = BackendRequestMerger.valids false true := by
        rw [BaseCache.mergerValids, BaseCache.missRequestO, BaseCache.writebackRequestO, hMiss, hQueue]
        rfl
      have hChosen : ∀ last, RRArbiter.outValid (BackendRequestMerger.valids false true) last = true ∧
          RRArbiter.chosen (BackendRequestMerger.valids false true) last ≠ 0 := by decide
      have hMerged : s.merged queueSize i = some (BackendRequestMerger.writeRequestConverted writeback) := by
        rw [merged, hReady, if_pos rfl, BaseCache.axiReq, hValid, if_pos (hChosen _).1, if_neg (hChosen _).2,
          BaseCache.writebackRequestO, hQueue]
        rfl
      rw [hMerged] at hEmpty
      exact FlushQueue.next_some_ne_nil rfl hReady _ hEmpty
    | false =>
      rw [reqReady, FlushQueue.enqReady, queueOf, Bool.false_and, Bool.or_false, decide_eq_false_iff_not] at hReady
      have hLong : 2 ≤ s.requests.length := by
        have : queueSize ≤ s.requests.length := Nat.le_of_not_lt hReady
        omega
      rw [FlushQueue.next, List.append_eq_nil_iff] at hEmpty
      have hLength := congrArg List.length hEmpty.1
      split at hLength
      · rw [List.length_tail, List.length_nil] at hLength
        omega
      · rw [List.length_nil] at hLength
        omega

end Writes

section Burst

variable {before : params.databankParameter.SetIndex → params.databankParameter.Way → CacheEntry params.databankParameter}
  {gone : List params.Addr} {written : List (Request params)} {s : MemoryPort params core} {i : Input params}

/-- The data of the block, when they were dirty, are among the writes. -/
def Saved (before : params.databankParameter.SetIndex → params.databankParameter.Way → CacheEntry params.databankParameter)
    (writes : List (Request params)) (addr : params.Addr) : Prop :=
  ∀ way, InBank before addr way → (before (setIndex addr) way).d = true →
    BackendRequestMerger.writeRequestConverted ⟨addr, (before (setIndex addr) way).data, true⟩ ∈ writes

/-- A burst at its port: the dirty data of what is gone are written, or on their way. -/
structure Flushing (before : params.databankParameter.SetIndex → params.databankParameter.Way →
    CacheEntry params.databankParameter) (gone : List params.Addr) (written : List (Request params))
    (s : MemoryPort params core) : Prop where
  bank : s.cache.bank.Flushing before gone
  noRefill : s.cache.refillQueue = []
  saved : ∀ addr ∈ gone, Saved before (written ++ s.outstanding) addr

theorem Flushing.start (hShape : s.cache.bank.Shape) (hS1 : s.cache.bank.s1FrontendRequestR = [])
    (hContext : s.cache.bank.s2BankWritingR = none) (hMiss : s.cache.bank.s2MissRequestR = [])
    (hRefill : s.cache.refillQueue = []) (written : List (Request params)) :
    s.Flushing s.cache.bank.bram.mem [] written where
  bank := .start hShape hS1 hContext hMiss
  noRefill := hRefill
  saved _ h := by cases h

variable (queueSize) in
theorem accepted_of_quiet (hRefill : s.cache.refillQueue = []) (hQuiet : i.pipelineValid = false)
    (hReady : s.cache.bank.pipelineStateReady0 (s.bankInput queueSize i) = true) :
    s.cache.bank.accepted (s.bankInput queueSize i) =
      if i.flushValid && !i.stallReq then some (flushToBank i.flushAddr) else none := by
  have hNone : s.cache.refillRequest (s.cacheInput queueSize i) = none := by rw [BaseCache.refillRequest, hRefill]
  have hValid : (s.bankInput queueSize i).valid = (i.flushValid && !i.stallReq) := by
    change (!i.stallReq && (i.flushValid || (s.cache.refillRequest (s.cacheInput queueSize i)).isSome ||
      i.pipelineValid)) = _
    rw [hNone, hQuiet, Option.isSome_none, Bool.or_false, Bool.or_false, Bool.and_comm]
  rw [DataBank.accepted, hReady, Bool.and_true, hValid]
  cases hFlush : i.flushValid with
  | false => rfl
  | true =>
    have hRequest : (s.bankInput queueSize i).request = flushToBank i.flushAddr := by
      change s.cache.arbiterBits (s.cacheInput queueSize i) = _
      rw [BaseCache.arbiterBits, (show (s.cacheInput queueSize i).flushValid = true from hFlush), if_pos rfl]
      rfl
    rw [hRequest]

theorem flushV_of_accepted (hFlush : i.flushValid = false) {q : BankRequest params.databankParameter}
    (hq : s.cache.bank.accepted (s.bankInput queueSize i) = some q) : q.packet.flushV = false := by
  obtain ⟨hRequest, _⟩ := DataBank.accepted_eq_some hq
  change s.cache.arbiterBits (s.cacheInput queueSize i) = q at hRequest
  rw [BaseCache.arbiterBits, (show (s.cacheInput queueSize i).flushValid = false from hFlush),
    if_neg Bool.false_ne_true] at hRequest
  subst hRequest
  rw [BaseCache.refillRequest]
  split <;> rfl

theorem Flushing.enter (hShape : s.cache.bank.Shape) (hS1 : s.cache.bank.s1FrontendRequestR = [])
    (hMiss : s.cache.bank.s2MissRequestR = []) (hRefill : s.cache.refillQueue = []) (hQuiet : i.pipelineValid = false)
    (hFlush : i.flushValid = false) :
    (s.next queueSize i).Flushing s.cache.bank.bram.mem [] [] ∧ (s.next queueSize i).cache.bank.inFlight = [] := by
  have hReady : s.cache.bank.pipelineStateReady0 (s.bankInput queueSize i) = true := by
    rw [DataBank.pipelineStateReady0, hS1]
    rfl
  have hNone : s.cache.bank.s1 = none := by rw [DataBank.s1, hS1, FlushQueue.deqBits_nil rfl]
  have hAccepted := accepted_of_quiet _ hRefill hQuiet hReady
  rw [hFlush, Bool.false_and, if_neg Bool.false_ne_true] at hAccepted
  have hStage : (s.next queueSize i).cache.bank.s1FrontendRequestR = [] := by
    change DataBank.s1Queue.next s.cache.bank.s1FrontendRequestR (s.cache.bank.accepted (s.bankInput queueSize i)) _ = []
    rw [hS1, hAccepted]
    exact FlushQueue.next_nil_none _
  have hContext : (s.next queueSize i).cache.bank.s2BankWritingR = none := by
    change s.cache.bank.s1.bind _ = none
    rw [hNone, Option.bind_none]
  have hMissed : (s.next queueSize i).cache.bank.s2MissRequestR = [] := by
    have hSent : s.cache.bank.missN (s.bankInput queueSize i) = none := by
      rw [DataBank.missN, DataBank.s1Fire, hNone, ite_self]
      rfl
    change DataBank.s2Queue.next s.cache.bank.s2MissRequestR (s.cache.bank.missN (s.bankInput queueSize i)) _ = []
    rw [hMiss, hSent]
    exact FlushQueue.next_nil_none _
  have hQueue : (s.next queueSize i).cache.refillQueue = [] := by
    have hFire : s.cache.missFire (s.cacheInput queueSize i) = none := by
      rw [BaseCache.missFire, BaseCache.missRequestO, hMiss, List.head?_nil, ite_self]
    change (BaseCache.refillQueueOf params).next s.cache.refillQueue (s.cache.missFire _) _ = []
    rw [hRefill, hFire]
    exact FlushQueue.next_nil_none _
  have hWrite : s.cache.bank.bankRamWriteRequest (cacheUpdateFunction _) = none := congrArg (Option.bind · _) hNone
  have hMem : (s.next queueSize i).cache.bank.bram.mem = s.cache.bank.bram.mem := DataBank.mem_next_of_none hWrite
  refine ⟨?_, congrArg (List.map _) hStage⟩
  rw [← hMem]
  exact .start hShape.next hStage hContext hMissed hQueue []

theorem Flushing.accepted (h : s.Flushing before gone written) (hQuiet : i.pipelineValid = false)
    (hStall : s.cache.bank.NoStall (s.bankInput queueSize i)) :
    s.cache.bank.accepted (s.bankInput queueSize i) =
      if i.flushValid && !i.stallReq then some (flushToBank i.flushAddr) else none :=
  accepted_of_quiet _ h.noRefill hQuiet (h.bank.pipelineStateReady0 hStall)

theorem Flushing.flushReady (h : s.Flushing before gone written)
    (hStall : s.cache.bank.NoStall (s.bankInput queueSize i)) :
    s.cache.flushReady (s.cacheInput queueSize i) = !i.stallReq := by
  change (!i.stallReq && s.cache.bank.pipelineStateReady0 (s.bankInput queueSize i)) = _
  rw [h.bank.pipelineStateReady0 hStall, Bool.and_true]

theorem Flushing.inFlight_next (h : s.Flushing before gone written) (hQuiet : i.pipelineValid = false)
    (hStall : s.cache.bank.NoStall (s.bankInput queueSize i)) :
    (s.next queueSize i).cache.bank.inFlight = if i.flushValid && !i.stallReq then [blockAddr i.flushAddr] else [] := by
  have hNext := h.bank.s1_next (cacheUpdateFunction _) hStall
  rw [h.accepted hQuiet hStall] at hNext
  change List.map _ (s.cache.bank.next _ (s.bankInput queueSize i)).s1FrontendRequestR = _
  rw [hNext]
  split <;> rfl

theorem Flushing.next (hSets : params.setWidth ≠ 1) (h : s.Flushing before gone written) (hQuiet : i.pipelineValid = false)
    (hStall : s.cache.bank.NoStall (s.bankInput queueSize i))
    (hOne : ∀ addr ∈ s.cache.bank.inFlight, InOneWay before addr)
    (hEnter : i.flushValid = true → blockAddr i.flushAddr ∉ gone ++ s.cache.bank.inFlight) :
    (s.next queueSize i).Flushing before (gone ++ s.cache.bank.inFlight) (written ++ (s.writeFire i).toList) where
  bank := by
    refine h.bank.next (cacheUpdateFunction _) hSets hStall hOne fun q hq => ?_
    change s.cache.bank.accepted (s.bankInput queueSize i) = some q at hq
    rw [h.accepted hQuiet hStall, Option.ite_none_right_eq_some, Bool.and_eq_true, Option.some.injEq] at hq
    obtain ⟨⟨hFlush, _⟩, rfl⟩ := hq
    exact ⟨rfl, hEnter hFlush⟩
  noRefill := by
    have hMiss : s.cache.missFire (s.cacheInput queueSize i) = none := by
      rw [BaseCache.missFire, BaseCache.missRequestO, h.bank.noMiss, List.head?_nil, ite_self]
    change (BaseCache.refillQueueOf params).next s.cache.refillQueue (s.cache.missFire _) _ = []
    rw [h.noRefill, hMiss]
    exact FlushQueue.next_nil_none _
  saved addr hMem way hIn hDirty := by
    rw [List.append_assoc, outstanding_next, ← List.append_assoc]
    rcases List.mem_append.mp hMem with hGone | hFlight
    · exact List.mem_append_left _ (h.saved addr hGone way hIn hDirty)
    · rcases h.bank.s1 with hEmpty | ⟨q, hS1, _⟩
      · rw [DataBank.inFlight, hEmpty] at hFlight
        cases hFlight
      · have hAddr : addr = q.packet.addr := by simpa [DataBank.inFlight, hS1] using hFlight
        subst hAddr
        refine List.mem_append_right _ ?_
        rw [writeSent, h.bank.writebackN hStall hS1 (hOne _ hFlight) hIn hDirty]
        exact List.mem_singleton_self _

end Burst

section Bare

variable {s : MemoryPort params core} {i : Input params}

/-- A cache that holds no block and has nothing but flushes in it. -/
structure Bare (s : MemoryPort params core) : Prop extends s.cache.bank.Shape where
  invalid : ∀ set way, (s.cache.bank.bram.mem set way).v = false
  word : ∀ way, (s.cache.bank.bram.ramDataA way).v = false
  flushes : ∀ q ∈ s.cache.bank.s1FrontendRequestR, q.packet.flushV = true ∧ s.cache.bank.readReplyValid = true
  context : s.cache.bank.s2BankWritingR = none
  misses : s.cache.bank.s2MissRequestR = []
  writebacks : s.cache.bank.s2WritebackRequestR = []
  refills : s.cache.refillQueue = []
  requests : s.requests = []

theorem Bare.init (lastGrant : Fin 2) : (init lastGrant : MemoryPort params core).Bare where
  toShape := .init
  invalid _ _ := rfl
  word _ := rfl
  flushes q hq := by cases hq
  context := rfl
  misses := rfl
  writebacks := rfl
  refills := rfl
  requests := rfl

theorem Bare.leaves (h : s.Bare) (input : DataBank.Input params.databankParameter) :
    s.cache.bank.s1FrontendRequestR = [] ∨ s.cache.bank.pipelineStateReady1 input = true := by
  cases hS1 : s.cache.bank.s1FrontendRequestR with
  | nil => exact .inl rfl
  | cons q rest =>
    obtain ⟨_, hValid⟩ := h.flushes q (by rw [hS1]; exact List.mem_cons_self)
    refine .inr ?_
    rw [DataBank.pipelineStateReady1, h.bankRamReply, hValid, h.s1_isSome hValid, h.misses, h.writebacks]
    rfl

theorem Bare.pipelineStateReady0 (h : s.Bare) (input : DataBank.Input params.databankParameter) :
    s.cache.bank.pipelineStateReady0 input = true := by
  rw [DataBank.pipelineStateReady0]
  rcases h.leaves input with hEmpty | hReady
  · rw [hEmpty]
    rfl
  · rw [hReady, FlushQueue.enqReady]
    exact Bool.or_true _

theorem Bare.stage (h : s.Bare) {q : BankRequest params.databankParameter} (hS1 : s.cache.bank.s1 = some q) :
    (s.cache.bank.secondStage q).hitV = false ∧ (s.cache.bank.secondStage q).fullWritingV = false ∧
      q.packet.flushV = true := by
  have hFlush := (h.flushes q (List.mem_of_mem_head? ((DataBank.s1_eq_some_iff q).mp hS1))).1
  refine ⟨?_, SecondStage.fullWritingV_of_flush q.flushAlone hFlush, hFlush⟩
  have hFwd : (s.cache.bank.secondStage q).s2WritingMatched = none := by
    change s.cache.bank.s2BankWritingR.filter _ = none
    rw [h.context]
    rfl
  have hMatch : ∀ way, (s.cache.bank.secondStage q).matchBits way = false := fun way => by
    change (_ && (s.cache.bank.bankRamReplyBits way).v) = false
    rw [h.bankRamReplyBits, h.word way, Bool.and_false]
  rw [SecondStage.hitV, hFwd, beq_eq_false_iff_ne, ne_eq, popCount_eq_one_iff]
  rintro ⟨way, hWay, _⟩
  rw [hMatch way] at hWay
  cases hWay

theorem Bare.bankRamWriteRequest (h : s.Bare) : s.cache.bank.bankRamWriteRequest (cacheUpdateFunction _) = none := by
  cases hWrite : s.cache.bank.bankRamWriteRequest (cacheUpdateFunction _) with
  | none => rfl
  | some w =>
    obtain ⟨q, hS1, hStage⟩ := DataBank.bankRamWriteRequest_eq_some hWrite
    obtain ⟨hHit, hFull, _⟩ := h.stage hS1
    have hPerforms := SecondStage.performs_of_bankWrite hStage
    rw [SecondStage.performs, hHit, hFull, Bool.or_false, Bool.and_false] at hPerforms
    cases hPerforms

theorem Bare.next (h : s.Bare) (hQuiet : i.pipelineValid = false) : (s.next queueSize i).Bare := by
  have hAccepted := accepted_of_quiet queueSize h.refills hQuiet (h.pipelineStateReady0 _)
  have hMem : (s.next queueSize i).cache.bank.bram.mem = s.cache.bank.bram.mem :=
    DataBank.mem_next_of_none h.bankRamWriteRequest
  have hMissFire : s.cache.missFire (s.cacheInput queueSize i) = none := by
    rw [BaseCache.missFire, BaseCache.missRequestO, h.misses, List.head?_nil, ite_self]
  have hWritebackN : s.cache.bank.writebackN (s.bankInput queueSize i) = none := by
    rw [DataBank.writebackN, Option.bind_eq_none_iff]
    intro q hFire
    have hS1 := (Option.ite_none_right_eq_some.mp hFire).2
    have hWrite : (s.cache.bank.secondStage q).bankRamWriteRequestO (cacheUpdateFunction _) = none :=
      (congrArg (Option.bind · _) hS1).symm.trans h.bankRamWriteRequest
    exact SecondStage.writebackRequest_of_not_bankWrite q.flushAlone hWrite
  have hMissN : s.cache.bank.missN (s.bankInput queueSize i) = none := by
    rw [DataBank.missN, Option.bind_eq_none_iff]
    intro q hFire
    exact SecondStage.missRequest_of_flush (h.stage (Option.ite_none_right_eq_some.mp hFire).2).2.2
  have hMerged : s.merged queueSize i = none := by
    rw [merged, BaseCache.axiReq, BaseCache.missRequestO, BaseCache.writebackRequestO, h.misses, h.writebacks]
    simp
  refine ⟨h.toShape.next, ?_, ?_, ?_, ?_, ?_, ?_, ?_, ?_⟩
  · rw [hMem]
    exact h.invalid
  · intro way
    change ((s.cache.bank.next _ (s.bankInput queueSize i)).bram.ramDataA way).v = false
    rw [DataBank.ramDataA_next]
    exact h.invalid _ way
  · intro q hq
    have hValid : (s.next queueSize i).cache.bank.readReplyValid = (s.cache.bank.accepted (s.bankInput queueSize i)).isSome := rfl
    rw [hValid]
    cases hSome : s.cache.bank.accepted (s.bankInput queueSize i) with
    | some q' =>
      have hList := @DataBank.Shape.s1_of_accepted _ _ (cacheUpdateFunction _) _ _ h.toShape _ hSome
      change q ∈ (s.cache.bank.next _ (s.bankInput queueSize i)).s1FrontendRequestR at hq
      rw [hList, List.mem_singleton] at hq
      subst hq
      rw [hAccepted, Option.ite_none_right_eq_some, Option.some.injEq] at hSome
      rw [← hSome.2]
      exact ⟨rfl, rfl⟩
    | none =>
      change q ∈ DataBank.s1Queue.next _ (s.cache.bank.accepted (s.bankInput queueSize i)) _ at hq
      have hLength := h.s1_length
      rw [hSome, FlushQueue.next_none] at hq
      rcases h.leaves (s.bankInput queueSize i) with hEmpty | hReady
      · rw [hEmpty, List.tail_nil, ite_self] at hq
        cases hq
      · have hTail : s.cache.bank.s1FrontendRequestR.tail = [] :=
          List.eq_nil_of_length_eq_zero (by rw [List.length_tail]; omega)
        change q ∈ if s.cache.bank.pipelineStateReady1 (s.bankInput queueSize i) then _ else _ at hq
        rw [hReady, if_pos rfl, hTail] at hq
        cases hq
  · change (s.cache.bank.s1.bind fun q => (s.cache.bank.secondStage q).s2BankWritingN (cacheUpdateFunction _)) = none
    rw [Option.bind_eq_none_iff]
    intro q hS1
    obtain ⟨hHit, hFull, _⟩ := h.stage hS1
    refine SecondStage.s2BankWritingN_of_not_performs ?_
    rw [SecondStage.performs, hHit, hFull, Bool.or_false, Bool.and_false]
  · change DataBank.s2Queue.next s.cache.bank.s2MissRequestR (s.cache.bank.missN (s.bankInput queueSize i)) _ = []
    rw [h.misses, hMissN]
    exact FlushQueue.next_nil_none _
  · change DataBank.s2Queue.next s.cache.bank.s2WritebackRequestR (s.cache.bank.writebackN (s.bankInput queueSize i)) _ = []
    rw [h.writebacks, hWritebackN]
    exact FlushQueue.next_nil_none _
  · change (BaseCache.refillQueueOf params).next s.cache.refillQueue (s.cache.missFire _) _ = []
    rw [h.refills, hMissFire]
    exact FlushQueue.next_nil_none _
  · change (queueOf queueSize).next s.requests (s.merged queueSize i) _ = []
    rw [h.requests, hMerged]
    exact FlushQueue.next_nil_none _

end Bare

end MemoryPort

end KnockoutKraken.Cache
