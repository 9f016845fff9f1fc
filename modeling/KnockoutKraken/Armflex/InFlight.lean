import KnockoutKraken.Armflex.TokenFlow

/-!
# Instructions on their way

What the fetch unit puts into the instruction queue was read for the
program counter that its thread asked for, and what the memory unit hands
to the commit queue is the completion of an instruction that was issued to
it: both are kept through the translation, the accesses and the queues.
-/

namespace KnockoutKraken.Armflex

open Library Util

variable {params : PipelineParams}

namespace FetchUnit

structure Asks (u : FetchUnit params Unit) (translating : Bool) (pc : params.Thid → Word) : Prop where
  translated : translating = true → u.metaDataTLB.pc = pc u.metaDataTLB.id
  waits : ∀ q ∈ u.cacheReqQ, q.inst.bits.pc = pc q.inst.bits.id
  accessed : ∀ m, m ∈ u.cacheAdaptor.baseQ ∨ m ∈ u.cacheAdaptor.longQ → m.bits.pc = pc m.bits.id

namespace Asks

variable {u : FetchUnit params Unit} {translating : Bool} {pc : params.Thid → Word}

theorem reset (metaDataTLB : FetchMeta params) : (reset metaDataTLB : FetchUnit params Unit).Asks false pc where
  translated hTranslating := by cases hTranslating
  waits q hq := by cases hq
  accessed m hm := by rcases hm with hm | hm <;> cases hm

theorem congr {pc' : params.Thid → Word} (h : u.Asks translating pc)
    (hSame : ∀ t, 0 < u.inFlight t + held id t (if translating then some u.metaDataTLB.id else none) → pc' t = pc t) :
    u.Asks translating pc' where
  translated hTranslating := by
    refine (h.translated hTranslating).trans (hSame _ ?_).symm
    simp [hTranslating, held_some]
  waits q hq := by
    have hPos := (tokens_pos_iff (fun q : FetchPending params Unit => q.inst.bits.id) q.inst.bits.id).mpr ⟨q, hq, rfl⟩
    refine (h.waits q hq).trans (hSame _ ?_).symm
    simp only [inFlight]
    omega
  accessed m hm := by
    refine (h.accessed m hm).trans (hSame _ ?_).symm
    rcases hm with hm | hm <;>
      have hPos := (tokens_pos_iff (fun m : Labelled Unit (FetchMeta params) => m.bits.id) m.bits.id).mpr ⟨m, hm, rfl⟩ <;>
      simp only [inFlight] <;> omega

variable {i : Input params Unit}

theorem answered (h : u.Asks translating pc) {r : Labelled Unit (FetchMeta params) × params.Block}
    (hr : CacheInterface.pipeResp u.cacheAdaptor i.cacheResp (u.respReady i) = some r) : r.1.bits.pc = pc r.1.bits.id :=
  h.accessed r.1 (CacheInterface.mem_of_pipeResp hr)

theorem next (h : u.Asks translating pc) (hReq : u.tlbReqFire i = true → u.pcUnit.reqBits = pc u.pcUnit.reqTag)
    (hAnswer : i.tlbResp.isSome = true → translating = true) :
    (u.next i).Asks (translating && i.tlbResp.isNone || u.tlbReqFire i) pc where
  translated hTranslating := by
    cases hFire : u.tlbReqFire i with
    | true =>
      have hMeta : (u.next i).metaDataTLB = u.metaDataTLBW := if_pos hFire
      rw [hMeta]
      exact hReq hFire
    | false =>
      have hMeta : (u.next i).metaDataTLB = u.metaDataTLB := if_neg (by rw [hFire]; decide)
      rw [hFire, Bool.or_false, Bool.and_eq_true] at hTranslating
      rw [hMeta]
      exact h.translated hTranslating.1
  waits q hq := by
    rcases FlushQueue.mem_of_mem_next hq with hOld | hEnq
    · exact h.waits q hOld
    · obtain ⟨resp, hResp, rfl⟩ := Option.map_eq_some_iff.mp hEnq
      exact h.translated (hAnswer (by rw [(Option.filter_eq_some_iff.mp hResp).1]; rfl))
  accessed m hm := by
    rcases hm with hm | hm
    · rcases DoubleLatencyQueue.mem_base_of_next hm with hOld | hReq
      · exact h.accessed m (.inl hOld)
      · obtain ⟨q, hq, rfl⟩ := Option.map_eq_some_iff.mp hReq
        rw [cacheReqFired_eq, Option.ite_none_right_eq_some] at hq
        exact h.waits q (List.mem_of_mem_head? hq.2)
    · exact h.accessed m (DoubleLatencyQueue.mem_long_of_next hm).symm

end Asks

end FetchUnit

namespace MInst

variable (inst : MInst params.thidW)

/-- After these answers the instruction waits for an access: the first one, or that to the second block of its pair. -/
def Underway (reads : List params.Block) (m : MemPending params Unit) : Prop :=
  reads = [] ∧ m.inst = inst ∧ m.firstIsCompleted = false ∨
    ∃ (first : MemPending params Unit) (block : params.Block),
      reads = [block] ∧ first.inst = inst ∧ first.needsSecondAccess = true ∧ m = first.firstCompleted block

/-- The instruction commits with what its accesses read. -/
def Completes (params : PipelineParams) (inst : MInst params.thidW) (reads : List params.Block)
    (c : CommitInst params.thidW) : Prop :=
  ∃ (m : MemPending params Unit) (earlier : List params.Block) (last : params.Block),
    reads = earlier ++ [last] ∧ inst.Underway earlier m ∧ m.needsSecondAccess = false ∧ c = m.done last

variable {inst}

theorem Underway.firstCompleted {reads : List params.Block} {m : MemPending params Unit} (h : inst.Underway reads m)
    (hSecond : m.needsSecondAccess = true) (block : params.Block) : inst.Underway (reads ++ [block]) (m.firstCompleted block) := by
  rcases h with ⟨rfl, rfl, -⟩ | ⟨first, _, rfl, rfl, -, rfl⟩
  · exact .inr ⟨m, block, rfl, rfl, hSecond, rfl⟩
  · simp [MemPending.needsSecondAccess, MemPending.firstCompleted] at hSecond

end MInst

namespace MemoryUnit

def readFor (u : MemoryUnit params Unit) (i : Input params Unit) (t : params.Thid) : List params.Block :=
  ((u.cachePipeResp i).filter fun r => decide (pendingTag r.1 = t)).toList.map Prod.snd

/-- All that the unit holds for a thread is on its way from the instruction that was issued for it, with the
blocks that were read for it so far. -/
structure Carries (u : MemoryUnit params Unit) (translating : Bool) (issued : params.Thid → Option (MInst params.thidW))
    (reads : params.Thid → List params.Block) : Prop where
  requested : ∀ inst ∈ u.tlbReqQ.items, inst ∈ issued inst.tag ∧ reads inst.tag = []
  translated : translating = true → u.tlbMeta ∈ issued u.tlbMeta.tag ∧ reads u.tlbMeta.tag = []
  waits : ∀ m, m ∈ u.cacheReqQ ∨ m ∈ u.cacheReqMisalignedQ →
    ∃ inst ∈ issued m.inst.tag, inst.Underway (reads m.inst.tag) m
  accessed : ∀ m, m ∈ u.cacheAdaptor.baseQ ∨ m ∈ u.cacheAdaptor.longQ →
    ∃ inst ∈ issued m.inst.tag, inst.Underway (reads m.inst.tag) m
  done : ∀ c ∈ u.doneInst, ∃ inst ∈ issued c.tag, inst.Completes params (reads c.tag) c

section Answers

variable {u : MemoryUnit params Unit} {i : Input params Unit} {t : params.Thid}

theorem readFor_of_resp {r : MemPending params Unit × params.Block} (hr : u.cachePipeResp i = some r) :
    u.readFor i r.1.inst.tag = [r.2] := by
  simp [readFor, hr, Option.filter, pendingTag]

theorem readFor_of_not_held
    (h : held (fun r : MemPending params Unit × params.Block => pendingTag r.1) t (u.cachePipeResp i) = 0) :
    u.readFor i t = [] := by
  rw [readFor, (held_eq_zero_iff _ _).mp h]
  rfl

theorem readFor_of_not_accessing (h : u.accessing t = 0) : u.readFor i t = [] := by
  refine readFor_of_not_held (Nat.le_zero.mp (h ▸ held_le _ _ fun r hr hTag => ?_))
  rcases CacheInterface.mem_of_pipeResp hr with hMem | hMem
  · exact Nat.add_pos_left ((tokens_pos_iff _ _).mpr ⟨r.1, hMem, hTag⟩) _
  · exact Nat.add_pos_right _ ((tokens_pos_iff _ _).mpr ⟨r.1, hMem, hTag⟩)

end Answers

namespace Carries

variable {u : MemoryUnit params Unit} {translating : Bool} {issued : params.Thid → Option (MInst params.thidW)}
  {reads : params.Thid → List params.Block}

theorem reset (c : Contents params Unit) : (reset c : MemoryUnit params Unit).Carries false issued reads where
  requested inst hInst := by cases hInst
  translated hTranslating := by cases hTranslating
  waits m hm := by rcases hm with hm | hm <;> cases hm
  accessed m hm := by rcases hm with hm | hm <;> cases hm
  done c hc := by cases hc

theorem pos_of_waits {m : MemPending params Unit} (hm : m ∈ u.cacheReqQ ∨ m ∈ u.cacheReqMisalignedQ) :
    0 < tokens pendingTag m.inst.tag u.cacheReqQ + tokens pendingTag m.inst.tag u.cacheReqMisalignedQ := by
  rcases hm with hm | hm
  · exact Nat.add_pos_left ((tokens_pos_iff pendingTag _).mpr ⟨m, hm, rfl⟩) _
  · exact Nat.add_pos_right _ ((tokens_pos_iff pendingTag _).mpr ⟨m, hm, rfl⟩)

theorem pos_of_accessed {m : MemPending params Unit} (hm : m ∈ u.cacheAdaptor.baseQ ∨ m ∈ u.cacheAdaptor.longQ) :
    0 < u.accessing m.inst.tag := by
  rcases hm with hm | hm
  · exact Nat.add_pos_left ((tokens_pos_iff pendingTag _).mpr ⟨m, hm, rfl⟩) _
  · exact Nat.add_pos_right _ ((tokens_pos_iff pendingTag _).mpr ⟨m, hm, rfl⟩)

theorem congr {issued' : params.Thid → Option (MInst params.thidW)} {reads' : params.Thid → List params.Block}
    (h : u.Carries translating issued reads)
    (hSame : ∀ t, ∀ inst ∈ issued t, 0 < u.inFlight t + held id t (if translating then some u.tlbMeta.tag else none) →
      inst ∈ issued' t ∧ reads' t = reads t) : u.Carries translating issued' reads' where
  requested inst hInst := by
    have hPos := (tokens_pos_iff MInst.tag inst.tag).mpr ⟨inst, hInst, rfl⟩
    obtain ⟨hIssued, hReads⟩ := hSame _ _ (h.requested inst hInst).1 (by
      simp only [inFlight]
      omega)
    exact ⟨hIssued, hReads.trans (h.requested inst hInst).2⟩
  translated hTranslating := by
    obtain ⟨hIssued, hReads⟩ := hSame _ _ (h.translated hTranslating).1 (by simp [hTranslating, held_some])
    exact ⟨hIssued, hReads.trans (h.translated hTranslating).2⟩
  waits m hm := by
    have hPos := pos_of_waits hm
    obtain ⟨inst, hInst, hUnderway⟩ := h.waits m hm
    obtain ⟨hIssued, hReads⟩ := hSame _ _ hInst (by
      simp only [inFlight]
      omega)
    exact ⟨inst, hIssued, hReads ▸ hUnderway⟩
  accessed m hm := by
    have hPos := pos_of_accessed hm
    obtain ⟨inst, hInst, hUnderway⟩ := h.accessed m hm
    obtain ⟨hIssued, hReads⟩ := hSame _ _ hInst (by
      simp only [inFlight]
      omega)
    exact ⟨inst, hIssued, hReads ▸ hUnderway⟩
  done c hc := by
    have hPos := (tokens_pos_iff CommitInst.tag c.tag).mpr ⟨c, hc, rfl⟩
    obtain ⟨inst, hInst, hCompletes⟩ := h.done c hc
    obtain ⟨hIssued, hReads⟩ := hSame _ _ hInst (by
      simp only [inFlight]
      omega)
    exact ⟨inst, hIssued, hReads ▸ hCompletes⟩

variable {i : Input params Unit}

theorem answered (h : u.Carries translating issued reads) {r : MemPending params Unit × params.Block}
    (hr : u.cachePipeResp i = some r) : ∃ inst ∈ issued r.1.inst.tag, inst.Underway (reads r.1.inst.tag) r.1 :=
  h.accessed r.1 (CacheInterface.mem_of_pipeResp hr)

/-- A thread has one place in the unit; it is answered only when that place is the cache. -/
theorem reads_elsewhere {t : params.Thid} (hOne : u.inFlight t + held id t (if translating then some u.tlbMeta.tag else none) ≤ 1)
    (hPlace : u.accessing t < u.inFlight t + held id t (if translating then some u.tlbMeta.tag else none)) :
    reads t ++ u.readFor i t = reads t := by
  rw [readFor_of_not_accessing (by omega), List.append_nil]

section Next

variable (h : u.Carries translating issued reads)
  (hOne : ∀ t, u.inFlight t + held id t (if translating then some u.tlbMeta.tag else none) ≤ 1)
include h hOne

theorem requested_next (hReq : ∀ inst ∈ i.req, inst ∈ issued inst.tag ∧ reads inst.tag = [] ∧ u.accessing inst.tag = 0)
    {inst : MInst params.thidW} (hInst : inst ∈ (u.next i).tlbReqQ.items) :
    inst ∈ issued inst.tag ∧ reads inst.tag ++ u.readFor i inst.tag = [] := by
  rcases RamQueue.mem_of_mem_next hInst with hOld | hEnq
  · have hPos := (tokens_pos_iff MInst.tag inst.tag).mpr ⟨inst, hOld, rfl⟩
    rw [reads_elsewhere (hOne _) (by simp only [inFlight]; omega)]
    exact h.requested inst hOld
  · obtain ⟨hIssued, hNone, hNot⟩ := hReq inst hEnq
    rw [hNone, readFor_of_not_accessing hNot]
    exact ⟨hIssued, rfl⟩

theorem translated_next (hTranslating : (translating && i.tlbResp.isNone || u.tlbReqDeqFire i) = true) :
    (u.next i).tlbMeta ∈ issued (u.next i).tlbMeta.tag ∧
      reads (u.next i).tlbMeta.tag ++ u.readFor i (u.next i).tlbMeta.tag = [] := by
  cases hFire : u.tlbReqDeqFire i with
  | true =>
    have hMeta : (u.next i).tlbMeta = u.head := if_pos hFire
    have hHead : u.head ∈ u.tlbReqQ.items := RamQueue.deqBits_mem (Bool.and_eq_true_iff.mp hFire).1
    have hPos := (tokens_pos_iff MInst.tag u.head.tag).mpr ⟨u.head, hHead, rfl⟩
    rw [hMeta, reads_elsewhere (hOne _) (by simp only [inFlight]; omega)]
    exact h.requested _ hHead
  | false =>
    have hMeta : (u.next i).tlbMeta = u.tlbMeta := if_neg (by rw [hFire]; decide)
    rw [hFire, Bool.or_false, Bool.and_eq_true] at hTranslating
    rw [hMeta, reads_elsewhere (hOne _) (by simp only [inFlight, hTranslating.1, if_true, held_some, id]; omega)]
    exact h.translated hTranslating.1

theorem waits_next (hAnswer : i.tlbResp.isSome = true → translating = true) {m : MemPending params Unit}
    (hm : m ∈ (u.next i).cacheReqQ ∨ m ∈ (u.next i).cacheReqMisalignedQ) :
    ∃ inst ∈ issued m.inst.tag, inst.Underway (reads m.inst.tag ++ u.readFor i m.inst.tag) m := by
  rcases hm with hm | hm <;> rcases FlushQueue.mem_of_mem_next hm with hOld | hEnq
  · have hPos := pos_of_waits (.inl hOld)
    rw [reads_elsewhere (hOne _) (by simp only [inFlight]; omega)]
    exact h.waits m (.inl hOld)
  · obtain ⟨resp, hResp, rfl⟩ := Option.map_eq_some_iff.mp hEnq
    have hFire := (Option.filter_eq_some_iff.mp (Option.filter_eq_some_iff.mp hResp).1).1
    have hTranslating := hAnswer (by rw [hFire]; rfl)
    obtain ⟨hIssued, hNone⟩ := h.translated hTranslating
    change ∃ inst ∈ issued u.tlbMeta.tag, inst.Underway (reads u.tlbMeta.tag ++ u.readFor i u.tlbMeta.tag) _
    rw [reads_elsewhere (hOne _) (by simp only [inFlight, hTranslating, if_true, held_some, id]; omega)]
    exact ⟨u.tlbMeta, hIssued, .inl ⟨hNone, rfl, rfl⟩⟩
  · have hPos := pos_of_waits (.inr hOld)
    rw [reads_elsewhere (hOne _) (by simp only [inFlight]; omega)]
    exact h.waits m (.inr hOld)
  · obtain ⟨r, hr, rfl⟩ := Option.map_eq_some_iff.mp hEnq
    obtain ⟨hResp, hSecond⟩ := Option.filter_eq_some_iff.mp hr
    obtain ⟨inst, hInst, hUnderway⟩ := h.answered hResp
    refine ⟨inst, hInst, ?_⟩
    change inst.Underway (reads r.1.inst.tag ++ u.readFor i r.1.inst.tag) _
    rw [readFor_of_resp hResp]
    exact hUnderway.firstCompleted hSecond r.2

theorem accessed_next (hRoom : u.Room i) (hLegal : ∀ r ∈ i.cacheResp, r.Legal) {m : MemPending params Unit}
    (hm : m ∈ (u.next i).cacheAdaptor.baseQ ∨ m ∈ (u.next i).cacheAdaptor.longQ) :
    ∃ inst ∈ issued m.inst.tag, inst.Underway (reads m.inst.tag ++ u.readFor i m.inst.tag) m := by
  -- what is at the cache after the cycle was not answered in it
  have hNone : u.readFor i m.inst.tag = [] := by
    have hPos : 0 < (u.next i).accessing m.inst.tag := pos_of_accessed hm
    have hSum := accessing_next m.inst.tag hRoom hLegal
    have hFired := held_cacheReqFired (u := u) (i := i) pendingTag m.inst.tag
    have hReqQ : held pendingTag m.inst.tag (if u.cacheReqDeqReady i then u.cacheReqQ.head? else none) ≤
        tokens pendingTag m.inst.tag u.cacheReqQ := held_head_le _ _ _
    have hMisalignedQ : held pendingTag m.inst.tag (if u.misalignedDeqReady i then u.cacheReqMisalignedQ.head? else none) ≤
        tokens pendingTag m.inst.tag u.cacheReqMisalignedQ := held_head_le _ _ _
    have hLe := hOne m.inst.tag
    simp only [inFlight] at hLe
    exact readFor_of_not_held (by omega)
  rw [hNone, List.append_nil]
  rcases hm with hm | hm
  · rcases DoubleLatencyQueue.mem_base_of_next hm with hOld | hReq
    · exact h.accessed m (.inl hOld)
    · rw [cacheReqFired_eq, Option.ite_none_right_eq_some] at hReq
      exact h.waits m (mem_of_pipeMeta hReq.2)
  · exact h.accessed m (DoubleLatencyQueue.mem_long_of_next hm).symm

theorem done_next {c : CommitInst params.thidW} (hc : c ∈ (u.next i).doneInst) :
    ∃ inst ∈ issued c.tag, inst.Completes params (reads c.tag ++ u.readFor i c.tag) c := by
  rcases FlushQueue.mem_of_mem_next hc with hOld | hEnq
  · have hPos := (tokens_pos_iff CommitInst.tag c.tag).mpr ⟨c, hOld, rfl⟩
    rw [reads_elsewhere (hOne _) (by simp only [inFlight]; omega)]
    exact h.done c hOld
  · obtain ⟨r, hr, rfl⟩ := Option.map_eq_some_iff.mp hEnq
    obtain ⟨hResp, hLast⟩ := Option.filter_eq_some_iff.mp hr
    obtain ⟨inst, hInst, hUnderway⟩ := h.answered hResp
    refine ⟨inst, hInst, r.1, reads r.1.inst.tag, r.2, ?_, hUnderway, by simpa using hLast, rfl⟩
    exact congrArg (reads r.1.inst.tag ++ ·) (readFor_of_resp hResp)

theorem next (hRoom : u.Room i) (hLegal : ∀ r ∈ i.cacheResp, r.Legal)
    (hReq : ∀ inst ∈ i.req, inst ∈ issued inst.tag ∧ reads inst.tag = [] ∧ u.accessing inst.tag = 0)
    (hAnswer : i.tlbResp.isSome = true → translating = true) :
    (u.next i).Carries (translating && i.tlbResp.isNone || u.tlbReqDeqFire i) issued fun t => reads t ++ u.readFor i t where
  requested _ hInst := h.requested_next hOne hReq hInst
  translated hTranslating := h.translated_next hOne hTranslating
  waits _ hm := h.waits_next hOne hAnswer hm
  accessed _ hm := h.accessed_next hOne hRoom hLegal hm
  done _ hc := h.done_next hOne hc

end Next

end Carries

end MemoryUnit

end KnockoutKraken.Armflex
