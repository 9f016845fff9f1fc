import KnockoutKraken.Cache.PageFlush

/-!
# Blocks nobody asks for

A cache that holds nothing dirty of some blocks, and has nothing of them
in its stages and queues, stays so as long as it is not asked for them:
it writes back what a request names and what a refill replaces.
-/

namespace KnockoutKraken.Cache

open Library Util

variable {p : DatabankParams} {core : LRUCore p.wayWidth} {update : UpdateFunction p}

namespace DataBank

/-- A dirty entry is valid, in the bank and in the word in front of the second stage. -/
structure DirtyValid (s : DataBank p core) : Prop extends s.Shape where
  bank : ∀ set way, (s.bram.mem set way).d = true → (s.bram.mem set way).v = true
  word : ∀ way, (s.bram.ramDataA way).d = true → (s.bram.ramDataA way).v = true

variable {s : DataBank p core} {i : Input p} {page : List p.Addr}

theorem DirtyValid.init : (init : DataBank p core).DirtyValid where
  toShape := .init
  bank _ _ h := by cases h
  word _ h := by cases h

variable (update) (i) in
theorem DirtyValid.next (h : s.DirtyValid) : (s.next update i).DirtyValid where
  toShape := h.toShape.next
  bank set way hDirty := by
    cases hWrite : s.bankRamWriteRequest update with
    | none =>
      rw [mem_next_of_none hWrite] at hDirty ⊢
      exact h.bank set way hDirty
    | some w =>
      obtain ⟨q, _, hStage⟩ := bankRamWriteRequest_eq_some hWrite
      rw [mem_next_of_some hWrite] at hDirty ⊢
      by_cases hPlace : set = w.addr → way ≠ w.which
      · rw [applyTo_of_ne hPlace] at hDirty ⊢
        exact h.bank set way hDirty
      · obtain ⟨rfl, hWay⟩ := Classical.not_imp.mp hPlace
        rw [not_not.mp hWay, applyTo_self] at hDirty ⊢
        exact SecondStage.bankWrite_valid q.flushAlone hStage hDirty
  word way hDirty := by
    rw [ramDataA_next] at hDirty ⊢
    exact h.bank _ way hDirty

/-- Nothing dirty of these blocks is in the bank or in the word read last, and nothing of them waits. -/
structure Untouched (page : List p.Addr) (s : DataBank p core) : Prop where
  clean : ∀ addr ∈ page, ∀ way, InBank s.bram.mem addr way → (s.bram.mem (setIndex addr) way).d = false
  stage : ∀ q ∈ s.s1FrontendRequestR, q.packet.addr ∉ page ∧ ∀ addr ∈ page, setIndex addr = setIndex q.packet.addr →
    s.readReplyValid = true → ∀ way, Holds CacheEntry.key s.bram.ramDataA (getTagFromAddress addr) way →
      (s.bram.ramDataA way).d = false
  misses : ∀ miss ∈ s.s2MissRequestR, miss.addr ∉ page
  writebacks : ∀ writeback ∈ s.s2WritebackRequestR, writeback.addr ∉ page

instance : Decidable (Untouched page s) :=
  decidable_of_iff ((∀ addr ∈ page, ∀ way, InBank s.bram.mem addr way → (s.bram.mem (setIndex addr) way).d = false) ∧
      (∀ q ∈ s.s1FrontendRequestR, q.packet.addr ∉ page ∧ ∀ addr ∈ page, setIndex addr = setIndex q.packet.addr →
        s.readReplyValid = true → ∀ way, Holds CacheEntry.key s.bram.ramDataA (getTagFromAddress addr) way →
          (s.bram.ramDataA way).d = false) ∧
      (∀ miss ∈ s.s2MissRequestR, miss.addr ∉ page) ∧ (∀ writeback ∈ s.s2WritebackRequestR, writeback.addr ∉ page))
    ⟨fun ⟨h, h', h'', h'''⟩ => ⟨h, h', h'', h'''⟩, fun ⟨h, h', h'', h'''⟩ => ⟨h, h', h'', h'''⟩⟩

theorem mem_of_s1 {q : BankRequest p} (hS1 : s.s1 = some q) : q ∈ s.s1FrontendRequestR :=
  List.mem_of_mem_head? ((s1_eq_some_iff q).mp hS1)

theorem s1Fire_eq_some {q : BankRequest p} (hFire : s.s1Fire i = some q) :
    s.s1 = some q ∧ s.bankRamReply.isSome = true := by
  rw [s1Fire, Option.ite_none_right_eq_some] at hFire
  obtain ⟨hReady, hS1⟩ := hFire
  rw [pipelineStateReady1, Bool.and_eq_true, Bool.and_eq_true, beq_iff_eq, hS1] at hReady
  exact ⟨hS1, hReady.1.1⟩

theorem Untouched.writebackN (hSets : p.setWidth ≠ 1) (h : s.Untouched page) (hValid : s.DirtyValid)
    {writeback : WriteBackRequest p} (hSent : s.writebackN i = some writeback) : writeback.addr ∉ page := by
  obtain ⟨q, hFire, hStage⟩ := Option.bind_eq_some_iff.mp hSent
  obtain ⟨hS1, hWord⟩ := s1Fire_eq_some hFire
  obtain ⟨hAddr, hClean⟩ := h.stage q (mem_of_s1 hS1)
  rw [SecondStage.writebackRequest, Option.or_eq_some_iff] at hStage
  rcases hStage with hEvict | ⟨_, hFlush⟩
  · intro hPage
    obtain ⟨⟨hMissed, hRefill⟩, hEntry⟩ : ((s.secondStage q).hitV = false ∧ (s.secondStage q).request.refillV = true) ∧
        (s.secondStage q).replacedEntry.d = true := by
      rw [SecondStage.evictionWbReq, Option.ite_none_right_eq_some] at hEvict
      obtain ⟨hGuard, _⟩ := hEvict
      simp only [Bool.and_eq_true, Bool.not_eq_true'] at hGuard
      exact ⟨⟨hGuard.1.2, hGuard.2⟩, hGuard.1.1⟩
    rw [SecondStage.evictionWbReq_of_refill hSets hMissed hRefill, if_pos hEntry, Option.some.injEq] at hEvict
    subst hEvict
    have hBits : (s.secondStage q).replacedEntry = s.bram.ramDataA s.lru.lruO := by
      change s.bankRamReplyBits s.lru.lruO = _
      rw [hValid.bankRamReplyBits]
    rw [hBits] at hEntry hPage
    have hHolds := hClean _ hPage (setIndex_append hSets _ _) (hValid.bankRamReply.symm.trans hWord) s.lru.lruO
      ((CacheEntry.key_eq_some_iff _ _).mpr ⟨hValid.word _ hEntry, (getTagFromAddress_append _ _).symm⟩)
    rw [hHolds] at hEntry
    cases hEntry
  · rw [SecondStage.flushWbReq, Option.ite_none_right_eq_some, Option.some.injEq] at hFlush
    obtain ⟨_, rfl⟩ := hFlush
    exact hAddr

theorem Untouched.missN (h : s.Untouched page) {miss : MissRequest p} (hSent : s.missN i = some miss) :
    miss.addr ∉ page := by
  obtain ⟨q, hFire, hStage⟩ := Option.bind_eq_some_iff.mp hSent
  rw [SecondStage.missRequest, Option.ite_none_right_eq_some, Option.some.injEq] at hStage
  obtain ⟨_, rfl⟩ := hStage
  exact (h.stage q (mem_of_s1 (s1Fire_eq_some hFire).1)).1

variable (update) in
theorem Untouched.next (hSets : p.setWidth ≠ 1) (h : s.Untouched page) (hValid : s.DirtyValid)
    (hEnter : ∀ q, s.accepted i = some q → q.packet.addr ∉ page) : (s.next update i).Untouched page := by
  refine ⟨fun addr hPage way hIn => ?_, fun q hq => ?_, fun miss hMiss => ?_, fun writeback hWb => ?_⟩
  · cases hWrite : s.bankRamWriteRequest update with
    | none =>
      rw [mem_next_of_none hWrite] at hIn ⊢
      exact h.clean addr hPage way hIn
    | some w =>
      obtain ⟨q, hS1, hStage⟩ := bankRamWriteRequest_eq_some hWrite
      rw [mem_next_of_some hWrite] at hIn ⊢
      by_cases hPlace : setIndex addr = w.addr → way ≠ w.which
      · rw [inBank_applyTo_of_ne hPlace] at hIn
        rw [applyTo_of_ne hPlace]
        exact h.clean addr hPage way hIn
      · obtain ⟨hSet, hWay⟩ := Classical.not_imp.mp hPlace
        rw [not_not.mp hWay, inBank_applyTo_self hSet, SecondStage.bankWrite_key q.flushAlone hStage,
          Option.ite_none_left_eq_some, Option.some.injEq] at hIn
        rw [SecondStage.bankWrite_addr q.flushAlone hStage] at hSet
        have hEq : addr = q.packet.addr := (addr_eq_iff hSets _ _).mpr ⟨hIn.2.symm, hSet⟩
        exact absurd (hEq ▸ hPage) (h.stage q (mem_of_s1 hS1)).1
  · cases hAccepted : s.accepted i with
    | some q' =>
      rw [hValid.s1_of_accepted hAccepted, List.mem_singleton] at hq
      subst hq
      refine ⟨hEnter q hAccepted, fun addr hPage hSet _ way hHolds => ?_⟩
      rw [ramDataA_next, (accepted_eq_some hAccepted).1, ← hSet] at hHolds ⊢
      exact h.clean addr hPage way hHolds
    | none =>
      -- a request that stays has no word any more
      have hWordless : (s.next update i).readReplyValid = false := congrArg Option.isSome hAccepted
      rcases FlushQueue.mem_of_mem_next hq with hOld | hNew
      · refine ⟨(h.stage q hOld).1, fun _ _ _ hWord => ?_⟩
        rw [hWordless] at hWord
        cases hWord
      · rw [hAccepted] at hNew
        cases hNew
  · rcases FlushQueue.mem_of_mem_next hMiss with hOld | hNew
    · exact h.misses miss hOld
    · exact h.missN hNew
  · rcases FlushQueue.mem_of_mem_next hWb with hOld | hNew
    · exact h.writebacks writeback hOld
    · exact h.writebackN hSets hValid hNew

end DataBank

namespace MemoryPort

open Cache2AXIAdaptor OrderedPort

variable {params : CacheParams} {core : LRUCore params.wayWidth} {queueSize : Nat}
  {s : MemoryPort params core} {i : Input params} {page : List params.Addr}

/-- The same of a cache with its queues. -/
structure Untouched (page : List params.Addr) (s : MemoryPort params core) : Prop where
  bank : s.cache.bank.Untouched page
  refills : ∀ miss ∈ s.cache.refillQueue, miss.addr ∉ page
  requests : ∀ request ∈ s.requests, request.addr ∉ page

instance : Decidable (Untouched page s) :=
  decidable_of_iff (s.cache.bank.Untouched page ∧ (∀ miss ∈ s.cache.refillQueue, miss.addr ∉ page) ∧
      ∀ request ∈ s.requests, request.addr ∉ page)
    ⟨fun ⟨h, h', h''⟩ => ⟨h, h', h''⟩, fun ⟨h, h', h''⟩ => ⟨h, h', h''⟩⟩

theorem Untouched.accepted (h : s.Untouched page) (hFlush : i.flushValid = false)
    (hAsk : i.pipelineValid = true → blockAddr i.pipelineReq.addr ∉ page) {q : BankRequest params.databankParameter}
    (hq : s.cache.bank.accepted (s.bankInput queueSize i) = some q) : q.packet.addr ∉ page := by
  obtain ⟨hRequest, hValid, _⟩ := DataBank.accepted_eq_some hq
  change s.cache.arbiterBits (s.cacheInput queueSize i) = q at hRequest
  change (!i.stallReq && s.cache.arbiterValid (s.cacheInput queueSize i)) = true at hValid
  rw [BaseCache.arbiterBits, (show (s.cacheInput queueSize i).flushValid = false from hFlush),
    if_neg Bool.false_ne_true] at hRequest
  rw [BaseCache.arbiterValid, (show (s.cacheInput queueSize i).flushValid = false from hFlush), Bool.false_or] at hValid
  cases hRefill : s.cache.refillRequest (s.cacheInput queueSize i) with
  | none =>
    rw [hRefill, Option.getD_none] at hRequest
    rw [hRefill, Option.isSome_none, Bool.false_or, Bool.and_eq_true] at hValid
    rw [← hRequest]
    exact hAsk hValid.2
  | some refill =>
    rw [hRefill, Option.getD_some] at hRequest
    subst hRequest
    rw [BaseCache.refillRequest] at hRefill
    split at hRefill
    · rename_i miss rest data hQueue _
      cases hRefill
      exact h.refills miss (by rw [hQueue]; exact List.mem_cons_self)
    · cases hRefill

theorem Untouched.merged (h : s.Untouched page) {request : Request params} (hMerged : s.merged queueSize i = some request) :
    request.addr ∉ page := by
  rw [MemoryPort.merged, Option.ite_none_right_eq_some] at hMerged
  obtain ⟨_, hReq⟩ := hMerged
  rw [BaseCache.axiReq, Option.ite_none_right_eq_some] at hReq
  obtain ⟨_, hReq⟩ := hReq
  split at hReq
  · obtain ⟨miss, hMiss, rfl⟩ := Option.map_eq_some_iff.mp hReq
    exact h.bank.misses miss (List.mem_of_mem_head? hMiss)
  · obtain ⟨writeback, hWb, rfl⟩ := Option.map_eq_some_iff.mp hReq
    exact h.bank.writebacks writeback (List.mem_of_mem_head? hWb)

theorem Untouched.next (hSets : params.setWidth ≠ 1) (h : s.Untouched page) (hValid : s.cache.bank.DirtyValid)
    (hFlush : i.flushValid = false) (hAsk : i.pipelineValid = true → blockAddr i.pipelineReq.addr ∉ page) :
    (s.next queueSize i).Untouched page where
  bank := h.bank.next (cacheUpdateFunction _) hSets hValid fun _ hq => h.accepted hFlush hAsk hq
  refills miss hMem := by
    rcases FlushQueue.mem_of_mem_next hMem with hOld | hNew
    · exact h.refills miss hOld
    · rw [BaseCache.missFire, Option.ite_none_right_eq_some] at hNew
      exact h.bank.misses miss (List.mem_of_mem_head? hNew.2)
  requests request hMem := by
    rcases FlushQueue.mem_of_mem_next hMem with hOld | hNew
    · exact h.requests request hOld
    · exact h.merged hNew

theorem Untouched.outstanding (h : s.Untouched page) : ∀ request ∈ s.outstanding, request.addr ∉ page := by
  intro request hMem
  rcases List.mem_append.mp hMem with hPort | hBank
  · exact h.requests request (List.mem_of_mem_filter hPort)
  · rw [queued, if_pos rfl] at hBank
    obtain ⟨writeback, hWb, rfl⟩ := List.mem_map.mp hBank
    exact h.bank.writebacks writeback hWb

end MemoryPort

end KnockoutKraken.Cache
