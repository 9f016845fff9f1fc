import KnockoutKraken.Cache.Writeback

/-!
# The bank in front of a memory

A memory serves the misses and the writebacks that leave the bank, in the
order they leave; a refill joins the oldest served miss with the word the
memory held then. Next to them runs the memory as the requests mean it,
which a write changes in the cycle its reply is issued. The bank and the
memory together hold that abstract memory.
-/

namespace KnockoutKraken.Cache

open Library Util

variable {p : DatabankParams} {core : LRUCore p.wayWidth}

namespace SecondStage

variable {x : SecondStage p}

/-- What the reply of a write or a refill shows: its masked bits over the entry hit or brought in. -/
theorem wData_of_not_flush (hFlush : x.request.flushV = false) (h : x.hitV = true ∨ x.fullWritingV = true) :
    (x.frontendReplyO (cacheUpdateFunction p)).wData =
      CacheEntry.merge (if x.hitV then x.hitEntry.data else x.request.refillData) x.request.wData x.request.wMask := by
  cases hHit : x.hitV with
  | true =>
    cases hFull : x.fullWritingV <;>
      simp [frontendReplyO, hFull, refillEntry, hHit, updatedEntry, hFlush, CacheEntry.read, cacheUpdateFunction,
        CacheEntry.write]
  | false =>
    have hFull : x.fullWritingV = true := h.resolve_left (by simp [hHit])
    simp [frontendReplyO, hFull, refillEntry, hHit, CacheEntry.read, cacheUpdateFunction, CacheEntry.write,
      refillNewEntry, CacheEntry.refill]

/-- A written entry is clean only under an empty mask, over an entry that was clean. -/
theorem bankWrite_clean (hAlone : x.request.FlushAlone) {w : BankWriteRequest p}
    (h : x.bankRamWriteRequestO (cacheUpdateFunction p) = some w) (hFlush : x.request.flushV = false)
    (hClean : w.data.d = false) :
    x.request.wMask = 0#p.blockSize ∧ (x.hitV = true → x.hitEntry.d = false) := by
  have hWritten : ∀ entry : CacheEntry p, ((cacheUpdateFunction p).apply x.request entry).d = false →
      x.request.wMask = 0#p.blockSize ∧ entry.d = false := by
    intro entry hEntry
    simpa [cacheUpdateFunction, CacheEntry.write] using hEntry
  rcases bankWrite_cases hAlone h with ⟨hFlush', _⟩ | ⟨_, _, rfl⟩ | ⟨_, hMiss, _, rfl⟩
  · rw [hFlush] at hFlush'
    cases hFlush'
  · exact ⟨(hWritten _ hClean).1, fun _ => (hWritten _ hClean).2⟩
  · refine ⟨(hWritten _ hClean).1, fun hHit => ?_⟩
    rw [hMiss] at hHit
    cases hHit

end SecondStage

structure MemorySystem (p : DatabankParams) (core : LRUCore p.wayWidth) where
  watched : Watched p core
  dram : p.Addr → p.Block
  served : List (MissRequest p × p.Block)
  latest : p.Addr → p.Block

/-- What a cycle offers to the bank; an idle cycle still drives the request lines. -/
inductive Offer (p : DatabankParams) where
  | access (addr : p.Addr) (asid : BitVec p.asidW) (thid : BitVec p.thidW) (perm : BitVec 2) (wData wMask : p.Block)
  | flush (addr : p.Addr) (asid : BitVec p.asidW)
  | refill
  | idle (bits : BankRequest p)

namespace MemorySystem

variable (c : MemorySystem p core) (o : Offer p)

abbrev bank : DataBank p core := c.watched.bank

def bankInput : DataBank.Input p :=
  match o with
  | .access addr asid thid perm wData wMask => ⟨.access addr asid thid perm wData wMask, true, true, true⟩
  | .flush addr asid => ⟨.flush addr asid, true, true, true⟩
  | .refill =>
    match c.served with
    | (miss, word) :: _ => ⟨miss.refillToBank word, true, true, true⟩
    | [] => ⟨.flush 0 0, false, true, true⟩
  | .idle bits => ⟨bits, false, true, true⟩

def output : DataBank.Output p := c.bank.output (cacheUpdateFunction p) (c.bankInput o)

def writeMemory (dram : p.Addr → p.Block) (wb : WriteBackRequest p) : p.Addr → p.Block :=
  Function.update dram wb.addr wb.data

def nextDram : p.Addr → p.Block := (c.output o).writeback.toList.foldl writeMemory c.dram

/-- The refill that was taken leaves the list, the miss that leaves the bank is served. -/
def nextServed : List (MissRequest p × p.Block) :=
  (match o with
    | .refill => if (c.output o).accepted.isSome then c.served.tail else c.served
    | _ => c.served) ++
    (c.output o).miss.toList.map fun miss => (miss, c.nextDram o miss.addr)

def answered : Option (BankRequest p × FrontendReply p) :=
  (c.bank.s1Fire (c.bankInput o)).map fun q => (q, (c.bank.secondStage q).frontendReplyO (cacheUpdateFunction p))

/-- A write is performed when its reply says hit, which those of refills and full-mask writes do. -/
def perform (latest : p.Addr → p.Block) (answer : BankRequest p × FrontendReply p) : p.Addr → p.Block :=
  if answer.2.hit && !answer.1.packet.flushV
  then Function.update latest answer.1.packet.addr
    (CacheEntry.merge (latest answer.1.packet.addr) answer.1.packet.wData answer.1.packet.wMask)
  else latest

def nextLatest : p.Addr → p.Block := (c.answered o).toList.foldl perform c.latest

def next : MemorySystem p core where
  watched := c.watched.next (cacheUpdateFunction p) (c.bankInput o)
  dram := c.nextDram o
  served := c.nextServed o
  latest := c.nextLatest o

def machine : Machine (MemorySystem p core) (Offer p) (DataBank.Output p) where
  next := next
  output := output

/-- The bank after reset, in front of a memory with any contents. -/
def init (dram : p.Addr → p.Block) : MemorySystem p core := ⟨.start .init, dram, [], dram⟩

/-- The replies of this cycle carry the block as the writes performed so far left it. -/
def ReplyLatest (c : MemorySystem p core) (o : Offer p) : Prop :=
  ∀ q reply, c.answered o = some (q, reply) →
    (q.packet.wMask = 0 → q.packet.flushV = false → q.packet.refillV = false → reply.hit = true →
      reply.rData = c.latest q.packet.addr) ∧
    (q.packet.refillV = true → reply.wData = c.nextLatest o q.packet.addr)

def settled : p.Addr → p.Block := c.bank.s2WritebackRequestR.foldl writeMemory c.dram

variable {c} {o}

theorem bankInput_ready : (c.bankInput o).missReady = true ∧ (c.bankInput o).writebackReady = true := by
  cases o with
  | access => exact ⟨rfl, rfl⟩
  | flush => exact ⟨rfl, rfl⟩
  | idle => exact ⟨rfl, rfl⟩
  | refill => cases hServed : c.served <;> simp [bankInput, hServed]

/-- A refill that misses brings in what memory holds now, as far as its own write does not cover it. -/
def RefillCurrent (c : MemorySystem p core) (q : BankRequest p) : Prop :=
  (c.bank.secondStage q).hitV = false → q.packet.refillV = true →
    CacheEntry.merge q.packet.refillData q.packet.wData q.packet.wMask =
      CacheEntry.merge (c.settled q.packet.addr) q.packet.wData q.packet.wMask

instance (q : BankRequest p) : Decidable (c.RefillCurrent q) :=
  inferInstanceAs (Decidable ((c.bank.secondStage q).hitV = false → q.packet.refillV = true →
    CacheEntry.merge q.packet.refillData q.packet.wData q.packet.wMask =
      CacheEntry.merge (c.settled q.packet.addr) q.packet.wData q.packet.wMask))

/-- A request that performs sees the way it uses, has a clean victim unless it is a refill,
and brings in current data when it is one. -/
def CoherenceSafe (c : MemorySystem p core) (o : Offer p) : Prop :=
  c.watched.FreshWrites (c.bankInput o) ∧ ∀ q ∈ c.bank.s1, (c.bank.secondStage q).performs = true →
    c.watched.CleanVictim q ∧ c.RefillCurrent q

instance : Decidable (c.CoherenceSafe o) :=
  inferInstanceAs (Decidable (c.watched.FreshWrites (c.bankInput o) ∧
    ∀ q ∈ c.bank.s1, (c.bank.secondStage q).performs = true → c.watched.CleanVictim q ∧ c.RefillCurrent q))

/-- A block in the bank is the latest one, and memory has the latest of every block that
is clean or not in the bank. -/
structure Coherent (c : MemorySystem p core) : Prop extends c.watched.Fresh where
  held : ∀ addr way, InBank c.bank.bram.mem addr way →
    (c.bank.bram.mem (setIndex addr) way).data = c.latest addr ∧
      ((c.bank.bram.mem (setIndex addr) way).d = false → c.settled addr = c.latest addr)
  absent : ∀ addr, (∀ way, ¬ InBank c.bank.bram.mem addr way) → c.settled addr = c.latest addr
  wordData : ∀ q, c.bank.s1 = some q → (c.bank.secondStage q).forwarded = false →
    ∀ way, Holds CacheEntry.key c.bank.bram.ramDataA (getTagFromAddress q.packet.addr) way →
      (c.bank.bram.ramDataA way).data = c.latest q.packet.addr

variable {q : BankRequest p}

theorem nextDram_eq_settled (h : c.watched.Fresh) : c.nextDram o = c.settled := by
  have hOne := h.writebackQ
  rw [nextDram, output, DataBank.output, settled, bankInput_ready.2, if_pos rfl]
  change c.bank.s2WritebackRequestR.length ≤ 1 at hOne
  cases hQueue : c.bank.s2WritebackRequestR with
  | nil => rfl
  | cons wb rest =>
    rw [hQueue, List.length_cons] at hOne
    have hRest : rest = [] := List.eq_nil_of_length_eq_zero (by omega)
    rw [hRest]
    rfl

theorem settled_next (h : c.watched.Fresh) :
    (c.next o).settled =
      ((c.bank.s1.bind fun q => (c.bank.secondStage q).writebackRequest).toList).foldl writeMemory c.settled := by
  have hQueue : (c.next o).bank.s2WritebackRequestR = (c.bank.writebackN (c.bankInput o)).toList := by
    change DataBank.s2Queue.next _ _ _ = _
    rw [bankInput_ready.2]
    exact FlushQueue.next_of_deqReady rfl h.writebackQ _ rfl
  rw [settled, hQueue, ← nextDram_eq_settled (o := o) h, ← h.writebackN bankInput_ready]
  rfl

theorem answered_eq (h : c.watched.Fresh) :
    c.answered o = c.bank.s1.map fun q => (q, (c.bank.secondStage q).frontendReplyO (cacheUpdateFunction p)) := by
  have hReady : c.bank.pipelineStateReady1 (c.bankInput o) = true := h.pipelineStateReady1 bankInput_ready
  rw [answered, DataBank.s1Fire, if_pos hReady]

theorem nextLatest_of_s1 (h : c.watched.Fresh) (hS1 : c.bank.s1 = some q) :
    c.nextLatest o = if (c.bank.secondStage q).performs && !q.packet.flushV
      then Function.update c.latest q.packet.addr
        (CacheEntry.merge (c.latest q.packet.addr) q.packet.wData q.packet.wMask) else c.latest := by
  rw [nextLatest, answered_eq h, hS1]
  change perform c.latest (q, _) = _
  rw [perform]
  cases hPerforms : (c.bank.secondStage q).performs with
  | true =>
    have hHit : ((c.bank.secondStage q).frontendReplyO (cacheUpdateFunction p)).hit = true := by
      simp only [SecondStage.performs, Bool.and_eq_true] at hPerforms
      exact hPerforms.2
    rw [hHit]
  | false =>
    rw [Bool.false_and, if_neg Bool.false_ne_true]
    by_cases hHit : ((c.bank.secondStage q).hitV || (c.bank.secondStage q).fullWritingV) = true
    · rw [SecondStage.performs, hHit, Bool.and_true] at hPerforms
      simp only [Bool.or_eq_false_iff, bne_eq_false_iff_eq, DataBank.secondStage_request] at hPerforms
      rw [hPerforms.1.1, CacheEntry.merge_zero, Function.update_eq_self, ite_self]
    · rw [if_neg]
      simp only [SecondStage.frontendReplyO, Bool.and_eq_true, not_and]
      exact fun hReply => absurd hReply hHit

theorem nextLatest_of_idle (h : c.watched.Fresh) (hS1 : c.bank.s1 = none) : c.nextLatest o = c.latest := by
  rw [nextLatest, answered_eq h, hS1]
  rfl

theorem Coherent.performed (hSets : p.setWidth ≠ 1) (h : c.Coherent) (hRule : c.CoherenceSafe o)
    (hS1 : c.bank.s1 = some q) (hPerforms : (c.bank.secondStage q).performs = true) (hFlush : q.packet.flushV = false) :
    ((c.bank.secondStage q).frontendReplyO (cacheUpdateFunction p)).wData =
      CacheEntry.merge (c.latest q.packet.addr) q.packet.wData q.packet.wMask := by
  have hFresh := hRule.1.2.2 q hS1 hPerforms
  have hHitOrFull : (c.bank.secondStage q).hitV = true ∨ (c.bank.secondStage q).fullWritingV = true := by
    rw [SecondStage.performs, Bool.and_eq_true] at hPerforms
    exact (Bool.or_eq_true _ _).mp hPerforms.2
  rw [SecondStage.wData_of_not_flush hFlush hHitOrFull, DataBank.secondStage_request]
  cases hHit : (c.bank.secondStage q).hitV with
  | true =>
    obtain ⟨hHolds, hData, _⟩ := h.toFresh.hit hSets hS1 hFresh hHit
    rw [if_pos rfl, ← hData]
    exact congrArg (CacheEntry.merge · _ _) (h.held q.packet.addr _ hHolds).1
  | false =>
    rw [if_neg Bool.false_ne_true]
    cases hRefill : q.packet.refillV with
    | true =>
      obtain ⟨hAbsent, _⟩ := h.toFresh.miss hSets hS1 hFresh hHit
      rw [(hRule.2 q hS1 hPerforms).2 hHit hRefill, h.absent q.packet.addr hAbsent]
    | false =>
      have hFull := hHitOrFull.resolve_left (by simp [hHit])
      rw [SecondStage.fullWritingV, DataBank.secondStage_request, hRefill, Bool.or_false, beq_iff_eq] at hFull
      rw [hFull, CacheEntry.merge_allOnes, CacheEntry.merge_allOnes]

theorem Coherent.performed_inBank (hSets : p.setWidth ≠ 1) (h : c.Coherent) (hRule : c.CoherenceSafe o)
    (hS1 : c.bank.s1 = some q) (hPerforms : (c.bank.secondStage q).performs = true) (hFlush : q.packet.flushV = false) :
    ∃ way, InBank (c.next o).bank.bram.mem q.packet.addr way := by
  have hNext : (c.next o).watched.Fresh := h.toFresh.next hSets hRule.1
  have hContext : (c.next o).bank.s2BankWritingR = _ :=
    (congrArg (Option.bind · _) hS1).trans
      (SecondStage.s2BankWritingN_of_performs (cacheUpdateFunction p) hPerforms)
  obtain ⟨way, hHolds, _⟩ := hNext.inBank _ hContext hFlush
  exact ⟨way, hHolds⟩

theorem latest_next_cases (h : c.watched.Fresh) (addr : p.Addr) :
    (c.next o).latest addr = c.latest addr ∨
    ∃ q, c.bank.s1 = some q ∧ (c.bank.secondStage q).performs = true ∧ q.packet.flushV = false ∧
      addr = q.packet.addr := by
  change c.nextLatest o addr = _ ∨ _
  cases hS1 : c.bank.s1 with
  | none => exact .inl (congrFun (nextLatest_of_idle h hS1) addr)
  | some q =>
    rw [nextLatest_of_s1 h hS1]
    by_cases hChange : ((c.bank.secondStage q).performs && !q.packet.flushV) = true
    · rw [if_pos hChange]
      rw [Bool.and_eq_true, Bool.not_eq_true'] at hChange
      by_cases hAddr : addr = q.packet.addr
      · exact .inr ⟨q, rfl, hChange.1, hChange.2, hAddr⟩
      · exact .inl (Function.update_of_ne hAddr _ _)
    · rw [if_neg hChange]
      exact .inl rfl

/-- The latest data of a block that is in the bank before or after, but not both, does not change. -/
theorem Coherent.latest_of_absent (hSets : p.setWidth ≠ 1) (h : c.Coherent) (hRule : c.CoherenceSafe o) {addr : p.Addr}
    (hAbsent : ∀ way, ¬ InBank (c.next o).bank.bram.mem addr way) : (c.next o).latest addr = c.latest addr := by
  rcases latest_next_cases h.toFresh addr with hSame | ⟨q, hS1, hPerforms, hFlush, rfl⟩
  · exact hSame
  · obtain ⟨way, hIn⟩ := h.performed_inBank hSets hRule hS1 hPerforms hFlush
    exact absurd hIn (hAbsent way)

/-- Memory changes only at a block that leaves the bank, and then to its latest data. -/
theorem Coherent.settled_next_cases (hSets : p.setWidth ≠ 1) (h : c.Coherent) (hRule : c.CoherenceSafe o)
    (addr : p.Addr) :
    (c.next o).settled addr = c.settled addr ∨
    (∀ way, ¬ InBank (c.next o).bank.bram.mem addr way) ∧ (c.next o).settled addr = c.latest addr := by
  rw [settled_next h.toFresh]
  cases hS1 : c.bank.s1 with
  | none => exact .inl rfl
  | some q =>
    rw [Option.bind_some]
    cases hWb : (c.bank.secondStage q).writebackRequest with
    | none => exact .inl rfl
    | some wb =>
      by_cases hAddr : addr = wb.addr
      · subst hAddr
        cases hStage : (c.bank.secondStage q).bankRamWriteRequestO (cacheUpdateFunction p) with
        | none =>
          rw [SecondStage.writebackRequest_of_not_bankWrite q.flushAlone hStage] at hWb
          cases hWb
        | some w =>
          have hWrite : c.bank.bankRamWriteRequest (cacheUpdateFunction p) = some w :=
            (congrArg (Option.bind · _) hS1).trans hStage
          have hFresh := hRule.1.2.2 q hS1 (SecondStage.performs_of_bankWrite hStage)
          obtain ⟨hSet, hHolds, hData, hKey, _⟩ := h.toFresh.removed_of_written_back hSets hS1 hFresh hStage hWb
          refine .inr ⟨fun way hIn => ?_, ?_⟩
          · change InBank (c.bank.next _ _).bram.mem _ _ at hIn
            rw [DataBank.mem_next_of_some hWrite] at hIn
            by_cases hWay : way = w.which
            · subst hWay
              exact hKey ((inBank_applyTo_self hSet).mp hIn)
            · rw [inBank_applyTo_of_ne fun _ => hWay, InBank, hSet] at hIn
              exact hWay (h.rows w.addr _ _ _ hIn hHolds)
          · have hIn : InBank c.bank.bram.mem wb.addr w.which := by rwa [InBank, hSet]
            have hLatest := (h.held wb.addr w.which hIn).1
            rw [hSet] at hLatest
            simp only [Option.toList_some, List.foldl_cons, List.foldl_nil, writeMemory, Function.update_self]
            exact hData.symm.trans hLatest
      · refine .inl ?_
        simp only [Option.toList_some, List.foldl_cons, List.foldl_nil, writeMemory]
        exact Function.update_of_ne hAddr _ _

theorem latest_next_self (h : c.watched.Fresh) (hS1 : c.bank.s1 = some q)
    (hPerforms : (c.bank.secondStage q).performs = true) (hFlush : q.packet.flushV = false) :
    (c.next o).latest q.packet.addr =
      CacheEntry.merge (c.latest q.packet.addr) q.packet.wData q.packet.wMask := by
  change c.nextLatest o _ = _
  rw [nextLatest_of_s1 h hS1, hPerforms, hFlush]
  exact Function.update_self _ _ _

theorem Coherent.held_written (hSets : p.setWidth ≠ 1) (h : c.Coherent) (hRule : c.CoherenceSafe o)
    (hS1 : c.bank.s1 = some q) (hFlush : q.packet.flushV = false) {w : BankWriteRequest p}
    (hStage : (c.bank.secondStage q).bankRamWriteRequestO (cacheUpdateFunction p) = some w) :
    w.data.data = (c.next o).latest q.packet.addr ∧
      (w.data.d = false → c.settled q.packet.addr = (c.next o).latest q.packet.addr) := by
  have hPerforms := SecondStage.performs_of_bankWrite hStage
  have hFresh := hRule.1.2.2 q hS1 hPerforms
  rw [latest_next_self h.toFresh hS1 hPerforms hFlush]
  refine ⟨?_, fun hClean => ?_⟩
  · rw [SecondStage.bankWrite_data q.flushAlone hStage hFlush]
    exact h.performed hSets hRule hS1 hPerforms hFlush
  · obtain ⟨hMask, hHitClean⟩ := SecondStage.bankWrite_clean q.flushAlone hStage hFlush hClean
    rw [DataBank.secondStage_request] at hMask
    rw [hMask, CacheEntry.merge_zero]
    cases hHit : (c.bank.secondStage q).hitV with
    | false => exact h.absent q.packet.addr (h.toFresh.miss hSets hS1 hFresh hHit).1
    | true =>
      obtain ⟨hHolds, _, hEntry⟩ := h.toFresh.hit hSets hS1 hFresh hHit
      have hEntryClean := hHitClean hHit
      cases hForwarded : (c.bank.secondStage q).forwarded with
      | true =>
        obtain ⟨context, hFwd, _⟩ := SecondStage.forwarded_iff.mp hForwarded
        rw [SecondStage.hitEntry_of_forwarded hFwd] at hEntryClean
        cases hEntryClean
      | false =>
        rw [hEntry hForwarded] at hEntryClean
        exact (h.held q.packet.addr _ hHolds).2 hEntryClean

theorem Coherent.held_next (hSets : p.setWidth ≠ 1) (h : c.Coherent) (hRule : c.CoherenceSafe o) (addr : p.Addr)
    (way : p.Way) (hIn : InBank (c.next o).bank.bram.mem addr way) :
    ((c.next o).bank.bram.mem (setIndex addr) way).data = (c.next o).latest addr ∧
      (((c.next o).bank.bram.mem (setIndex addr) way).d = false → (c.next o).settled addr = (c.next o).latest addr) := by
  have hSettled : (c.next o).settled addr = c.settled addr :=
    (h.settled_next_cases hSets hRule addr).resolve_right fun hGone => hGone.1 way hIn
  rw [hSettled]
  have hNext : (c.next o).watched.Fresh := h.toFresh.next hSets hRule.1
  by_cases hOwn : ∃ q, c.bank.s1 = some q ∧ (c.bank.secondStage q).performs = true ∧ q.packet.flushV = false ∧
      addr = q.packet.addr
  · obtain ⟨q, hS1, hPerforms, hFlush, rfl⟩ := hOwn
    cases hStage : (c.bank.secondStage q).bankRamWriteRequestO (cacheUpdateFunction p) with
    | none =>
      have hWrite : c.bank.bankRamWriteRequest (cacheUpdateFunction p) = none :=
        (congrArg (Option.bind · _) hS1).trans hStage
      have hMem : (c.next o).bank.bram.mem = c.bank.bram.mem := DataBank.mem_next_of_none hWrite
      have hFresh := hRule.1.2.2 q hS1 hPerforms
      obtain ⟨hHit, _⟩ := SecondStage.unchanged_of_not_bankWrite q.flushAlone hPerforms hStage
      obtain ⟨hHolds, hData, _⟩ := h.toFresh.hit hSets hS1 hFresh hHit
      have hLatest : (c.next o).latest q.packet.addr = c.latest q.packet.addr := by
        calc (c.next o).latest q.packet.addr
            = CacheEntry.merge (c.latest q.packet.addr) q.packet.wData q.packet.wMask :=
              latest_next_self h.toFresh hS1 hPerforms hFlush
          _ = ((c.bank.secondStage q).frontendReplyO (cacheUpdateFunction p)).wData :=
              (h.performed hSets hRule hS1 hPerforms hFlush).symm
          _ = (c.bank.secondStage q).hitEntry.data :=
              SecondStage.reply_of_not_bankWrite q.flushAlone hPerforms hStage
          _ = c.latest q.packet.addr := hData.symm.trans (h.held q.packet.addr _ hHolds).1
      rw [hMem] at hIn ⊢
      rw [hLatest]
      exact h.held q.packet.addr way hIn
    | some w =>
      have hWrite : c.bank.bankRamWriteRequest (cacheUpdateFunction p) = some w :=
        (congrArg (Option.bind · _) hS1).trans hStage
      have hMem : (c.next o).bank.bram.mem = w.applyTo c.bank.bram.mem := DataBank.mem_next_of_some hWrite
      have hAddr : w.addr = setIndex q.packet.addr := SecondStage.bankWrite_addr q.flushAlone hStage
      have hKey := SecondStage.bankWrite_key q.flushAlone hStage
      rw [DataBank.secondStage_request, hFlush, if_neg Bool.false_ne_true] at hKey
      have hWritten : InBank (c.next o).bank.bram.mem q.packet.addr w.which := by
        rw [hMem]
        exact (inBank_applyTo_self hAddr.symm).mpr hKey
      have hWay : way = w.which := hNext.rows (setIndex q.packet.addr) _ _ _ hIn hWritten
      rw [hWay, hMem, ← hAddr, applyTo_self]
      exact h.held_written hSets hRule hS1 hFlush hStage
  · have hLatest : (c.next o).latest addr = c.latest addr :=
      (latest_next_cases h.toFresh addr).resolve_right hOwn
    rw [hLatest]
    cases hWrite : c.bank.bankRamWriteRequest (cacheUpdateFunction p) with
    | none =>
      have hMem : (c.next o).bank.bram.mem = c.bank.bram.mem := DataBank.mem_next_of_none hWrite
      rw [hMem] at hIn ⊢
      exact h.held addr way hIn
    | some w =>
      obtain ⟨q, hS1, hStage⟩ := DataBank.bankRamWriteRequest_eq_some hWrite
      have hMem : (c.next o).bank.bram.mem = w.applyTo c.bank.bram.mem := DataBank.mem_next_of_some hWrite
      have hAddr : w.addr = setIndex q.packet.addr := SecondStage.bankWrite_addr q.flushAlone hStage
      have hOff : setIndex addr = w.addr → way ≠ w.which := by
        rintro hSet rfl
        rw [hMem, inBank_applyTo_self hSet, SecondStage.bankWrite_key q.flushAlone hStage] at hIn
        cases hFlush : q.packet.flushV <;> rw [DataBank.secondStage_request, hFlush] at hIn
        · rw [if_neg Bool.false_ne_true, Option.some.injEq] at hIn
          exact hOwn ⟨q, hS1, SecondStage.performs_of_bankWrite hStage, hFlush,
            (addr_eq_iff hSets _ _).mpr ⟨hIn.symm, hSet.trans hAddr⟩⟩
        · cases hIn
      rw [hMem, inBank_applyTo_of_ne hOff] at hIn
      rw [hMem, applyTo_of_ne hOff]
      exact h.held addr way hIn

theorem Coherent.absent_next (hSets : p.setWidth ≠ 1) (h : c.Coherent) (hRule : c.CoherenceSafe o) (addr : p.Addr)
    (hAbsent : ∀ way, ¬ InBank (c.next o).bank.bram.mem addr way) :
    (c.next o).settled addr = (c.next o).latest addr := by
  rw [h.latest_of_absent hSets hRule hAbsent]
  rcases h.settled_next_cases hSets hRule addr with hSame | ⟨_, hLatest⟩
  · by_cases hBefore : ∃ way, InBank c.bank.bram.mem addr way
    · obtain ⟨way, hIn⟩ := hBefore
      obtain ⟨hData, hClean⟩ := h.held addr way hIn
      cases hDirty : (c.bank.bram.mem (setIndex addr) way).d with
      | false => rw [hSame, hClean hDirty]
      | true =>
        -- a dirty block that is gone was written back by the request in the second stage
        have hRemoved : DirtyRemoved c.bank.bram.mem (c.next o).bank.bram.mem addr (c.latest addr) :=
          ⟨⟨way, hIn, hDirty, hData⟩, hAbsent⟩
        cases hWrite : c.bank.bankRamWriteRequest (cacheUpdateFunction p) with
        | none =>
          have hMem : (c.next o).bank.bram.mem = c.bank.bram.mem := DataBank.mem_next_of_none hWrite
          rw [hMem] at hRemoved
          exact absurd hRemoved not_dirtyRemoved_self
        | some w =>
          obtain ⟨q, hS1, hStage⟩ := DataBank.bankRamWriteRequest_eq_some hWrite
          have hMem : (c.next o).bank.bram.mem = w.applyTo c.bank.bram.mem := DataBank.mem_next_of_some hWrite
          have hPerforms := SecondStage.performs_of_bankWrite hStage
          rw [hMem] at hRemoved
          obtain ⟨wb, hWb, hAddr, hWbData⟩ := h.toFresh.written_back hSets hS1 (hRule.1.2.2 q hS1 hPerforms)
            (hRule.2 q hS1 hPerforms).1 hStage hRemoved
          rw [settled_next h.toFresh, hS1, Option.bind_some, hWb]
          simp only [Option.toList_some, List.foldl_cons, List.foldl_nil, writeMemory, ← hAddr, Function.update_self]
          rw [hWbData, hAddr]
    · rw [hSame]
      exact h.absent addr fun way hIn => hBefore ⟨way, hIn⟩
  · exact hLatest

theorem Coherent.wordData_next (h : c.Coherent)
    (hS1 : (c.next o).bank.s1 = some q) (hForwarded : ((c.next o).bank.secondStage q).forwarded = false) (way : p.Way)
    (hHolds : Holds CacheEntry.key (c.next o).bank.bram.ramDataA (getTagFromAddress q.packet.addr) way) :
    ((c.next o).bank.bram.ramDataA way).data = (c.next o).latest q.packet.addr := by
  have hAccepted : c.bank.accepted (c.bankInput o) = some q := (h.toFresh.s1_next bankInput_ready).symm.trans hS1
  obtain ⟨hRequest, _⟩ := DataBank.accepted_eq_some hAccepted
  have hWord : (c.next o).bank.bram.ramDataA = c.bank.bram.mem (setIndex q.packet.addr) := by
    rw [← hRequest]
    exact DataBank.ramDataA_next
  rw [hWord] at hHolds ⊢
  rw [(h.held q.packet.addr way hHolds).1]
  rcases latest_next_cases (o := o) h.toFresh q.packet.addr with hSame | ⟨q', hS1', hPerforms, hFlush, hAddr⟩
  · exact hSame.symm
  · have hContext : (c.next o).bank.s2BankWritingR = _ :=
      (congrArg (Option.bind · _) hS1').trans
        (SecondStage.s2BankWritingN_of_performs (cacheUpdateFunction p) hPerforms)
    have hFwd := SecondStage.forwarded_iff.mpr
      ⟨_, (SecondStage.s2WritingMatched_eq_some_iff (x := (c.next o).bank.secondStage q) _).mpr
        ⟨hContext, hAddr.symm⟩, hFlush⟩
    rw [hForwarded] at hFwd
    cases hFwd

theorem Coherent.next (hSets : p.setWidth ≠ 1) (h : c.Coherent) (hRule : c.CoherenceSafe o) :
    (c.next o).Coherent where
  toFresh := h.toFresh.next hSets hRule.1
  held := h.held_next hSets hRule
  absent := h.absent_next hSets hRule
  wordData _ := h.wordData_next

theorem Coherent.start (dram : p.Addr → p.Block) : (init dram : MemorySystem p core).Coherent where
  toFresh := .start
  held addr way hIn := by cases hIn
  absent addr _ := rfl
  wordData q hS1 := by cases hS1

theorem Coherent.read_hit (h : c.Coherent) (hS1 : c.bank.s1 = some q) (hHit : (c.bank.secondStage q).hitV = true) :
    (c.bank.secondStage q).hitEntry.data = c.latest q.packet.addr := by
  cases hForwarded : (c.bank.secondStage q).forwarded with
  | true =>
    obtain ⟨context, hFwd, hFlush⟩ := SecondStage.forwarded_iff.mp hForwarded
    obtain ⟨hContext, hAddr⟩ := (SecondStage.s2WritingMatched_eq_some_iff context).mp hFwd
    obtain ⟨way, hHolds, hData⟩ := h.inBank context hContext hFlush
    rw [SecondStage.hitEntry_of_forwarded hFwd]
    change context.dataBlock = _
    rw [← hData, (h.held context.addr way hHolds).1, hAddr]
    rfl
  | false =>
    obtain ⟨hEntry, hHolds⟩ := SecondStage.hit_of_not_forwarded hHit hForwarded
    have hWord : (c.bank.secondStage q).bankRamReply = c.bank.bram.ramDataA := h.bankRamReplyBits
    rw [hEntry, hWord]
    rw [hWord] at hHolds
    exact h.wordData q hS1 hForwarded _ hHolds

theorem Coherent.replyLatest (hSets : p.setWidth ≠ 1) (h : c.Coherent) (hRule : c.CoherenceSafe o) :
    c.ReplyLatest o := by
  intro q reply hAnswered
  rw [answered_eq h.toFresh, Option.map_eq_some_iff] at hAnswered
  obtain ⟨q', hS1, hPair⟩ := hAnswered
  obtain ⟨rfl, rfl⟩ := Prod.mk.inj hPair
  constructor
  · intro hMask _ hRefill hHit
    have hFull : (c.bank.secondStage q').fullWritingV = false := by
      rw [SecondStage.fullWritingV, DataBank.secondStage_request, hMask, hRefill, Bool.or_false]
      exact zero_ne_allOnes p
    have hHitV : (c.bank.secondStage q').hitV = true := by
      simpa [SecondStage.frontendReplyO, hFull] using hHit
    exact h.read_hit hS1 hHitV
  · intro hRefill
    have hFlush : q'.packet.flushV = false := by
      by_contra hFlush
      have hAlone := (q'.flushAlone (eq_true_of_ne_false hFlush)).2
      rw [hRefill] at hAlone
      cases hAlone
    have hPerforms : (c.bank.secondStage q').performs = true := by
      simp [SecondStage.performs, SecondStage.fullWritingV, hRefill]
    exact (h.performed hSets hRule hS1 hPerforms hFlush).trans
      (latest_next_self h.toFresh hS1 hPerforms hFlush).symm

end MemorySystem

/-- From any memory contents, every cycle answers with the latest data. -/
theorem replies_latest (hSets : p.setWidth ≠ 1) (dram : p.Addr → p.Block) {os : List (Offer p)}
    (hSafe : MemorySystem.machine.Along MemorySystem.CoherenceSafe (.init dram : MemorySystem p core) os) :
    MemorySystem.machine.Along MemorySystem.ReplyLatest (.init dram : MemorySystem p core) os := by
  have hStart : (MemorySystem.init dram : MemorySystem p core).Coherent := .start dram
  refine hSafe.of_invariant hStart ?_ ?_
  · intro c o hCoherent hRule
    exact hCoherent.next hSets hRule
  · intro c o hCoherent hRule
    exact hCoherent.replyLatest hSets hRule

section TwoWays

def writeOffer (addr : BitVec 2) (wData wMask : BitVec 16) : Offer twoWays := .access addr 0 0 0 wData wMask

def idleOffer : Offer twoWays := .idle (.flush 0 0)

/-- A block is written whole and, by the next request, in part; the second write takes the
other way, whose dirty block is gone when it is read again. -/
theorem reply_stale :
    let c := MemorySystem.machine.run (.init fun _ => 0 : MemorySystem twoWays (PseudoTreeLRUCore 1))
      [writeOffer 0 1 0xffff#16, idleOffer, writeOffer 1 2 0xffff#16, writeOffer 1 3 0x00ff#16, idleOffer,
        writeOffer 0 0 0, idleOffer, idleOffer, .refill]
    ¬ c.ReplyLatest idleOffer := by
  intro c hReply
  have hAnswer : c.answered idleOffer = some (BankRequest.refill 0 0 0 0 0 0, ⟨3, 0, 0, 0, true, true, false⟩) := by
    decide +kernel
  have hLatest := (hReply _ _ hAnswer).2 rfl
  exact absurd hLatest (by decide +kernel)

theorem replies_latest_of_gaps :
    MemorySystem.machine.Along MemorySystem.ReplyLatest
      (.init fun _ => 5 : MemorySystem twoWays (PseudoTreeLRUCore 1))
      [writeOffer 0 1 0xffff#16, idleOffer, writeOffer 1 2 0xffff#16, idleOffer, writeOffer 2 3 0x00ff#16, idleOffer,
        idleOffer, .refill, idleOffer, idleOffer, writeOffer 0 0 0, idleOffer, idleOffer, .refill, idleOffer] :=
  replies_latest (by decide) (fun _ => 5) (by decide +kernel)

end TwoWays

end KnockoutKraken.Cache
